import SchemaLint.Nesting

/-!
# Balanced texts

A balanced text (`Nesting.Balanced`) leaves its reader where he was, at whatever depth he started,
and closes no bracket that it did not open. Plain characters, quoted texts and bracketed balanced
texts are balanced, and so are balanced texts one after the other. A text hides a class of
characters (`Hides`) when none of them stands in it outside quotes and brackets.
-/

namespace SchemaLint

namespace Nesting

/-- Outside all quotes, with a number of brackets open. -/
def atDepth (d : Nat) : Nesting :=
  { depth := d, quote := none, escaped := false }

/-- Inside of a quote that was opened at a depth. -/
def inQuote (d : Nat) (q : Char) : Nesting :=
  { depth := d, quote := some q, escaped := false }

theorem start_eq : start = atDepth 0 :=
  rfl

@[simp] theorem after_nil (n : Nesting) : n.after [] = n :=
  rfl

@[simp] theorem after_cons (n : Nesting) (c : Char) (s : List Char) :
    n.after (c :: s) = (n.next c).after s :=
  rfl

theorem after_append (n : Nesting) (s t : List Char) : n.after (s ++ t) = (n.after s).after t := by
  unfold after
  rw [List.foldl_append]

theorem marks_append (n : Nesting) (s t : List Char) :
    n.marks (s ++ t) = n.marks s ++ (n.after s).marks t := by
  induction s generalizing n with
  | nil => rfl
  | cons c s ih => simp only [List.cons_append, marks, after_cons, ih]

/-! ## Readers outside of quotes -/

theorem escaped_next {n : Nesting} (h : n.quote = none → n.escaped = false) (c : Char) :
    (n.next c).quote = none → (n.next c).escaped = false := by
  unfold next
  grind

theorem escaped_after {n : Nesting} (h : n.quote = none → n.escaped = false) (s : List Char) :
    (n.after s).quote = none → (n.after s).escaped = false := by
  induction s generalizing n with
  | nil => exact h
  | cons c s ih => exact ih (escaped_next h c)

/-- Outside of quotes a reader who started there knows the depth only. -/
theorem after_eq_atDepth (d : Nat) {s : List Char} (h : ((atDepth d).after s).quote = none) :
    (atDepth d).after s = atDepth ((atDepth d).after s).depth := by
  have hescaped : ((atDepth d).after s).escaped = false := escaped_after (fun _ => rfl) s h
  cases hafter : (atDepth d).after s with
  | mk depth quote escaped =>
    rw [hafter] at h hescaped
    obtain rfl : quote = none := h
    obtain rfl : escaped = false := hescaped
    rfl

/-! ## Single characters -/

/-- A character that neither quotes, opens nor closes. -/
def isPlain (c : Char) : Bool :=
  !isQuote c && !isOpener c && !isCloser c

/-- A kind of characters without quotes and brackets has only plain characters. -/
theorem isPlain_of_kind {p : Char → Bool}
    (hp : ['\x27', '\x22', '\x60', '(', '[', '\x7b', ')', ']', '\x7d'].any p = false)
    {c : Char} (h : p c = true) : isPlain c = true := by
  rw [← Bool.not_eq_false]
  intro hplain
  have hmem : c ∈ ['\x27', '\x22', '\x60', '(', '[', '\x7b', ')', ']', '\x7d'] := by
    simp only [isPlain, isQuote, isOpener, isCloser, Bool.and_eq_false_iff, Bool.not_eq_false',
      Bool.or_eq_true, beq_iff_eq] at hplain
    simp only [List.mem_cons, List.not_mem_nil, or_false]
    simpa only [or_assoc] using hplain
  rw [List.any_eq_true.mpr ⟨c, hmem, h⟩] at hp
  cases hp

section Characters

variable {c : Char} (d : Nat)

theorem next_plain (h : isPlain c = true) : (atDepth d).next c = atDepth d := by
  simp only [isPlain, Bool.and_eq_true, Bool.not_eq_true'] at h
  simp [next, atDepth, h]

theorem mark_plain (h : isPlain c = true) :
    (atDepth d).mark c = { ch := c, depth := d, quoted := false } := by
  simp only [isPlain, Bool.and_eq_true, Bool.not_eq_true'] at h
  simp [mark, atDepth, h]

theorem next_quote (h : isQuote c = true) : (atDepth d).next c = inQuote d c := by
  simp [next, atDepth, inQuote, h]

theorem mark_quote (h : isQuote c = true) :
    (atDepth d).mark c = { ch := c, depth := d, quoted := true } := by
  simp [mark, atDepth, h]

/-- The three classes of characters with a meaning do not meet. -/
theorem isOpener_excludes (h : isOpener c = true) : isQuote c = false ∧ isCloser c = false := by
  simp only [isOpener, Bool.or_eq_true, beq_iff_eq] at h
  rcases h with (rfl | rfl) | rfl <;> decide

theorem isCloser_excludes (h : isCloser c = true) : isQuote c = false ∧ isOpener c = false := by
  simp only [isCloser, Bool.or_eq_true, beq_iff_eq] at h
  rcases h with (rfl | rfl) | rfl <;> decide

theorem next_opener (h : isOpener c = true) : (atDepth d).next c = atDepth (d + 1) := by
  simp [next, atDepth, h, isOpener_excludes h]

theorem mark_opener (h : isOpener c = true) :
    (atDepth d).mark c = { ch := c, depth := d, quoted := false } := by
  simp [mark, atDepth, isOpener_excludes h]

theorem next_closer (h : isCloser c = true) : (atDepth (d + 1)).next c = atDepth d := by
  simp [next, atDepth, h, isCloser_excludes h]

theorem mark_closer (h : isCloser c = true) :
    (atDepth (d + 1)).mark c = { ch := c, depth := d, quoted := false } := by
  simp [mark, atDepth, h, isCloser_excludes h]

end Characters

/-! ## Quoted texts -/

/-- What may stand between a quote and its partner: the quote itself and the backslash only after a
backslash. -/
inductive Escaped (q : Char) : List Char → Prop
  | nil : Escaped q []
  | plain {c : Char} {s : List Char} (hq : c ≠ q) (hb : c ≠ '\\') (h : Escaped q s) :
      Escaped q (c :: s)
  | escape {c : Char} {s : List Char} (h : Escaped q s) : Escaped q ('\\' :: c :: s)

theorem next_inQuote_plain (d : Nat) {q c : Char} (hq : c ≠ q) (hb : c ≠ '\\') :
    (inQuote d q).next c = inQuote d q := by
  simp [next, inQuote, hq, hb]

theorem next_next_inQuote_escape (d : Nat) (q c : Char) :
    ((inQuote d q).next '\\').next c = inQuote d q := by
  simp [next, inQuote]

theorem next_inQuote_self (d : Nat) {q : Char} (hb : q ≠ '\\') :
    (inQuote d q).next q = atDepth d := by
  simp [next, inQuote, atDepth, hb]

theorem isQuote_ne_backslash {q : Char} (h : isQuote q = true) : q ≠ '\\' := by
  rintro rfl
  exact absurd h (by decide)

/-- A text that leaves its reader inside of a quote and all of which is read as quoted. -/
structure StaysQuoted (q : Char) (s : List Char) : Prop where
  after_eq : ∀ d, (inQuote d q).after s = inQuote d q
  mem_marks : ∀ d, ∀ m ∈ (inQuote d q).marks s, m.depth = d ∧ m.quoted = true

namespace StaysQuoted

variable {q : Char} {s t : List Char}

theorem nil : StaysQuoted q [] :=
  ⟨fun _ => rfl, fun _ m hm => by simp [marks] at hm⟩

theorem append (hs : StaysQuoted q s) (ht : StaysQuoted q t) : StaysQuoted q (s ++ t) := by
  refine ⟨fun d => ?_, fun d m hm => ?_⟩
  · rw [after_append, hs.after_eq, ht.after_eq]
  · rw [marks_append, hs.after_eq] at hm
    rcases List.mem_append.mp hm with hm | hm
    · exact hs.mem_marks d m hm
    · exact ht.mem_marks d m hm

/-- A quote written twice closes the quote and opens it again. -/
theorem twice (hq : isQuote q = true) : StaysQuoted q [q, q] := by
  have hb := isQuote_ne_backslash hq
  refine ⟨fun d => ?_, fun d m hm => ?_⟩
  · rw [after_cons, next_inQuote_self d hb, after_cons, next_quote d hq, after_nil]
  · rw [marks, next_inQuote_self d hb, marks, mark_quote d hq, marks] at hm
    rcases List.mem_cons.mp hm with rfl | hm
    · exact ⟨rfl, rfl⟩
    · obtain rfl := List.mem_singleton.mp hm
      exact ⟨rfl, rfl⟩

end StaysQuoted

theorem Escaped.after_eq {q : Char} {s : List Char} (h : Escaped q s) (d : Nat) :
    (inQuote d q).after s = inQuote d q := by
  induction h with
  | nil => rfl
  | plain hq hb _ ih => rw [after_cons, next_inQuote_plain d hq hb, ih]
  | escape _ ih => rw [after_cons, after_cons, next_next_inQuote_escape, ih]

theorem Escaped.mem_marks {q : Char} {s : List Char} (h : Escaped q s) (d : Nat) :
    ∀ m ∈ (inQuote d q).marks s, m.depth = d ∧ m.quoted = true := by
  induction h with
  | nil => simp [marks]
  | plain hq hb _ ih =>
    intro m hm
    rw [marks, next_inQuote_plain d hq hb] at hm
    rcases List.mem_cons.mp hm with rfl | hm
    · exact ⟨rfl, rfl⟩
    · exact ih m hm
  | escape _ ih =>
    intro m hm
    rw [marks, marks, next_next_inQuote_escape] at hm
    rcases List.mem_cons.mp hm with rfl | hm
    · exact ⟨rfl, rfl⟩
    · rcases List.mem_cons.mp hm with rfl | hm
      · exact ⟨rfl, rfl⟩
      · exact ih m hm

theorem Escaped.staysQuoted {q : Char} {s : List Char} (h : Escaped q s) : StaysQuoted q s :=
  ⟨h.after_eq, h.mem_marks⟩

/-! ## Balanced texts -/

/-- A text that leaves its reader where he was and closes only brackets of its own. -/
structure Balanced (s : List Char) : Prop where
  after_eq : ∀ d, (atDepth d).after s = atDepth d
  le_depth : ∀ d, ∀ m ∈ (atDepth d).marks s, d ≤ m.depth

namespace Balanced

theorem nil : Balanced [] :=
  ⟨fun _ => rfl, fun _ m hm => by simp [marks] at hm⟩

theorem append {s t : List Char} (hs : Balanced s) (ht : Balanced t) : Balanced (s ++ t) := by
  refine ⟨fun d => ?_, fun d m hm => ?_⟩
  · rw [after_append, hs.after_eq, ht.after_eq]
  · rw [marks_append, hs.after_eq] at hm
    rcases List.mem_append.mp hm with hm | hm
    · exact hs.le_depth d m hm
    · exact ht.le_depth d m hm

theorem cons {c : Char} {s : List Char} (hc : isPlain c = true) (hs : Balanced s) :
    Balanced (c :: s) := by
  refine ⟨fun d => ?_, fun d m hm => ?_⟩
  · rw [after_cons, next_plain d hc, hs.after_eq]
  · rw [marks, next_plain d hc, mark_plain d hc] at hm
    rcases List.mem_cons.mp hm with rfl | hm
    · exact Nat.le_refl d
    · exact hs.le_depth d m hm

theorem of_plain {s : List Char} (h : ∀ c ∈ s, isPlain c = true) : Balanced s := by
  induction s with
  | nil => exact nil
  | cons c s ih =>
    exact cons (h c List.mem_cons_self) (ih fun x hx => h x (List.mem_cons_of_mem c hx))

theorem of_staysQuoted {q : Char} {s : List Char} (hq : isQuote q = true) (h : StaysQuoted q s) :
    Balanced (q :: (s ++ [q])) := by
  have hb := isQuote_ne_backslash hq
  refine ⟨fun d => ?_, fun d m hm => ?_⟩
  · rw [after_cons, next_quote d hq, after_append, h.after_eq, after_cons, next_inQuote_self d hb,
      after_nil]
  · rw [marks, next_quote d hq, mark_quote d hq, marks_append, h.after_eq] at hm
    rcases List.mem_cons.mp hm with rfl | hm
    · exact Nat.le_refl d
    · rcases List.mem_append.mp hm with hm | hm
      · exact Nat.le_of_eq (h.mem_marks d m hm).1.symm
      · rw [marks, marks, List.mem_singleton] at hm
        subst hm
        exact Nat.le_refl d

theorem bracketed {o c : Char} {s : List Char} (ho : isOpener o = true) (hc : isCloser c = true)
    (hs : Balanced s) : Balanced (o :: (s ++ [c])) := by
  refine ⟨fun d => ?_, fun d m hm => ?_⟩
  · rw [after_cons, next_opener d ho, after_append, hs.after_eq, after_cons, next_closer d hc,
      after_nil]
  · rw [marks, next_opener d ho, mark_opener d ho, marks_append, hs.after_eq] at hm
    rcases List.mem_cons.mp hm with rfl | hm
    · exact Nat.le_refl d
    · rcases List.mem_append.mp hm with hm | hm
      · exact Nat.le_of_succ_le (hs.le_depth (d + 1) m hm)
      · rw [marks, marks, mark_closer d hc, List.mem_singleton] at hm
        subst hm
        exact Nat.le_refl d

end Balanced

/-! ## Blanks -/

theorem isPlain_of_isBlank {c : Char} (h : Text.isBlank c = true) : isPlain c = true :=
  isPlain_of_kind (by decide) h

theorem isBlank_eq_false {c : Char} (h : isPlain c = false) : Text.isBlank c = false := by
  cases hb : Text.isBlank c with
  | false => rfl
  | true => rw [isPlain_of_isBlank hb] at h; cases h

theorem Balanced.of_blank {s : List Char} (h : ∀ c ∈ s, Text.isBlank c = true) : Balanced s :=
  Balanced.of_plain fun c hc => isPlain_of_isBlank (h c hc)

end Nesting

/-! ## Hidden characters -/

open Nesting

/-- No character of a class stands in a text outside quotes and brackets. -/
def Hides (p : Char → Bool) (s : List Char) : Prop :=
  ∀ m ∈ marks s, m.isTop = true → p m.ch = false

namespace Hides

variable {p : Char → Bool}

theorem append_of_after {s t : List Char} (hafter : start.after s = start) (hs : Hides p s)
    (ht : Hides p t) : Hides p (s ++ t) := by
  intro m hm
  rw [SchemaLint.marks, marks_append, hafter] at hm
  rcases List.mem_append.mp hm with hm | hm
  · exact hs m hm
  · exact ht m hm

theorem append {s t : List Char} (hb : Balanced s) (hs : Hides p s) (ht : Hides p t) :
    Hides p (s ++ t) :=
  append_of_after (hb.after_eq 0) hs ht

theorem of_append {s t : List Char} (h : Hides p (s ++ t)) : Hides p s := by
  intro m hm
  refine h m ?_
  rw [SchemaLint.marks, marks_append]
  exact List.mem_append_left _ hm

/-- A text without characters of a class hides them. -/
theorem of_forall {s : List Char} (h : ∀ c ∈ s, p c = false) : Hides p s := by
  suffices ∀ n : Nesting, ∀ m ∈ n.marks s, p m.ch = false from fun m hm _ => this start m hm
  induction s with
  | nil => simp [Nesting.marks]
  | cons c s ih =>
    intro n m hm
    rcases List.mem_cons.mp hm with rfl | hm
    · have hch : (n.mark c).ch = c := by
        unfold mark
        split
        · rfl
        · split
          · rfl
          · split <;> rfl
      rw [hch]
      exact h c List.mem_cons_self
    · exact ih (fun x hx => h x (List.mem_cons_of_mem c hx)) _ m hm

theorem of_staysQuoted {q : Char} {s : List Char} (hq : isQuote q = true) (h : StaysQuoted q s) :
    Hides p (q :: (s ++ [q])) := by
  intro m hm htop
  have hquoted : m.quoted = true := by
    rw [SchemaLint.marks, Nesting.marks, start_eq, next_quote 0 hq, mark_quote 0 hq, marks_append,
      h.after_eq] at hm
    rcases List.mem_cons.mp hm with rfl | hm
    · rfl
    · rcases List.mem_append.mp hm with hm | hm
      · exact (h.mem_marks 0 m hm).2
      · rw [Nesting.marks, Nesting.marks, List.mem_singleton] at hm
        subst hm
        rfl
  simp [Mark.isTop, hquoted] at htop

theorem quoted {q : Char} {s : List Char} (hq : isQuote q = true) (h : Escaped q s) :
    Hides p (q :: (s ++ [q])) :=
  of_staysQuoted hq h.staysQuoted

/-- Brackets hide all that is between them. -/
theorem bracketed {o c : Char} {s : List Char} (ho : isOpener o = true) (hc : isCloser c = true)
    (hs : Balanced s) (hpo : p o = false) (hpc : p c = false) : Hides p (o :: (s ++ [c])) := by
  intro m hm htop
  rw [SchemaLint.marks, Nesting.marks, start_eq, next_opener 0 ho, mark_opener 0 ho, marks_append,
    hs.after_eq] at hm
  rcases List.mem_cons.mp hm with rfl | hm
  · exact hpo
  · rcases List.mem_append.mp hm with hm | hm
    · have hdepth := hs.le_depth 1 m hm
      simp only [Mark.isTop, Bool.and_eq_true, beq_iff_eq] at htop
      omega
    · rw [Nesting.marks, Nesting.marks, mark_closer 0 hc, List.mem_singleton] at hm
      subst hm
      exact hpc

/-- Blanks hide every separator. -/
theorem of_blank {s : List Char} (h : ∀ c ∈ s, Text.isBlank c = true) {sep : Char}
    (hsep : Text.isBlank sep = false) : Hides (· == sep) s := by
  refine of_forall fun c hc => beq_eq_false_iff_ne.mpr ?_
  rintro rfl
  rw [h c hc] at hsep
  cases hsep

end Hides

end SchemaLint
