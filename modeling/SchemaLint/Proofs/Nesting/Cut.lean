import SchemaLint.Proofs.Nesting.Balanced
import SchemaLint.Proofs.Text

/-!
# Where texts are cut

A balanced text in front of a separator that it hides is the first segment of the whole
(`segments_append_sep`) and what a cut at the separator leaves before it (`cutAtTop?_append`); the
partner of a bracket in front of a balanced text is the closing bracket after that text
(`cutAtPartner?_bracketed`).
-/

namespace SchemaLint

open Nesting

theorem foldr_consHead (s p : List Char) (ps : List (List Char)) :
    s.foldr Text.consHead (p :: ps) = (s ++ p) :: ps := by
  induction s with
  | nil => rfl
  | cons c s ih => rw [List.foldr_cons, ih, Text.consHead, List.cons_append]

/-! ## Parts -/

/-- A text without a place that passes stays in front of the first part of what follows it. -/
theorem parts_append {test : PlaceTest} {s : List Char} (t : List Char) (n : Nesting)
    (before : Option Char)
    (h : ∀ a c b, s = a ++ c :: b → ((n.after a).mark c).isTop = true →
      test (a.getLast?.or before) (c :: (b ++ t)) = false) :
    n.parts test before (s ++ t) =
      s.foldr Text.consHead ((n.after s).parts test (s.getLast?.or before) t) := by
  induction s generalizing n before with
  | nil => simp
  | cons c s ih =>
    have hhead : ((n.mark c).isTop && test before (c :: (s ++ t))) = false := by
      rw [Bool.and_eq_false_imp]
      exact fun htop => h [] c s rfl htop
    have htail := ih (n.next c) (some c) fun a d b hs htop => by
      rw [← Text.getLast?_cons_or c a before]
      exact h (c :: a) d b (by rw [hs, List.cons_append]) htop
    rw [List.cons_append, Nesting.parts, hhead, htail, Text.getLast?_cons_or]
    rfl

theorem parts_ne_nil_from (test : PlaceTest) (n : Nesting) (before : Option Char)
    (s : List Char) : n.parts test before s ≠ [] := by
  cases s with
  | nil => simp [Nesting.parts]
  | cons c s =>
    rw [Nesting.parts]
    split
    · simp
    · cases Nesting.parts test (n.next c) (some c) s <;> simp [Text.consHead]

theorem parts_ne_nil (test : PlaceTest) (s : List Char) : SchemaLint.parts test s ≠ [] :=
  parts_ne_nil_from test start none s

/-- Cutting a text loses nothing, wherever its reader starts. -/
theorem flatten_parts_from (test : PlaceTest) (n : Nesting) (before : Option Char)
    (s : List Char) : (n.parts test before s).flatten = s := by
  induction s generalizing n before with
  | nil => rfl
  | cons c s ih =>
    rw [Nesting.parts]
    split
    · rw [List.flatten_cons, List.nil_append, Text.flatten_consHead, ih]
    · rw [Text.flatten_consHead, ih]

/-- Cutting a text loses nothing. -/
theorem flatten_parts (test : PlaceTest) (s : List Char) :
    (SchemaLint.parts test s).flatten = s :=
  flatten_parts_from test start none s

/-- The test passes only in front of characters of a class. -/
def PlaceTest.Needs (test : PlaceTest) (p : Char → Bool) : Prop :=
  ∀ before c s, test before (c :: s) = true → p c = true

theorem needs_standsAt (sep : Char) : (standsAt sep).Needs (· == sep) := by
  intro before c s h
  simpa [standsAt] using h

theorem mark_ch (n : Nesting) (c : Char) : (n.mark c).ch = c := by
  unfold mark
  split
  · rfl
  · split
    · rfl
    · split <;> rfl

theorem mem_marks_append_cons (n : Nesting) (a b : List Char) (c : Char) :
    (n.after a).mark c ∈ n.marks (a ++ c :: b) := by
  rw [marks_append]
  exact List.mem_append_right _ List.mem_cons_self

theorem exists_of_mem_marks {n : Nesting} {s : List Char} {m : Mark} (h : m ∈ n.marks s) :
    ∃ a c b, s = a ++ c :: b ∧ m = (n.after a).mark c := by
  induction s generalizing n with
  | nil => cases h
  | cons c s ih =>
    rcases List.mem_cons.mp h with rfl | h
    · exact ⟨[], c, s, rfl, rfl⟩
    · obtain ⟨a, d, b, rfl, rfl⟩ := ih h
      exact ⟨c :: a, d, b, rfl, rfl⟩

/-- What a test needs is hidden by the text, so the text has no place that passes. -/
theorem parts_append_of_hides {test : PlaceTest} {p : Char → Bool} {s : List Char}
    (htest : test.Needs p) (hs : Hides p s) (t : List Char) (before : Option Char) :
    start.parts test before (s ++ t) =
      s.foldr Text.consHead ((start.after s).parts test (s.getLast?.or before) t) := by
  apply parts_append
  rintro a c b rfl htop
  have hc := hs _ (mem_marks_append_cons start a b c) htop
  rw [mark_ch] at hc
  cases hpass : test (a.getLast?.or before) (c :: (b ++ t)) with
  | false => rfl
  | true => rw [htest _ _ _ hpass] at hc; cases hc

theorem parts_of_hides {test : PlaceTest} {p : Char → Bool} {s : List Char} (htest : test.Needs p)
    (hs : Hides p s) (before : Option Char) : start.parts test before s = [s] := by
  have h := parts_append_of_hides htest hs [] before
  rw [List.append_nil, Nesting.parts, foldr_consHead, List.append_nil] at h
  exact h

theorem firstCut?_eq_none {test : PlaceTest} {p : Char → Bool} {s : List Char}
    (htest : test.Needs p) (hs : Hides p s) : firstCut? test s = none := by
  unfold firstCut? SchemaLint.parts
  rw [parts_of_hides htest hs]

/-- Parts do not depend on what came before when the test does not look back. -/
theorem parts_standsAt_before (n : Nesting) (sep : Char) (s : List Char) (b b' : Option Char) :
    n.parts (standsAt sep) b s = n.parts (standsAt sep) b' s := by
  cases s with
  | nil => rfl
  | cons c s => rfl

/-! ## Separators -/

section Separator

variable {sep : Char} {s : List Char}

/-- A separator outside quotes and brackets after a text that hides it begins the second part. -/
theorem parts_append_sep (hsep : isPlain sep = true) (hafter : start.after s = start)
    (hs : Hides (· == sep) s) (t : List Char) :
    SchemaLint.parts (standsAt sep) (s ++ sep :: t) =
      s :: Text.consHead sep (SchemaLint.parts (standsAt sep) t) := by
  have hmark : ((start.mark sep).isTop && standsAt sep (s.getLast?.or none) (sep :: t)) = true := by
    rw [start_eq, mark_plain 0 hsep]
    simp [Mark.isTop, standsAt]
  unfold SchemaLint.parts
  rw [parts_append_of_hides (needs_standsAt sep) hs, hafter, Nesting.parts, hmark, start_eq,
    next_plain 0 hsep, parts_standsAt_before _ _ _ (some sep) none, if_pos rfl, foldr_consHead,
    List.append_nil]

theorem segments_of_hides (hs : Hides (· == sep) s) : segments sep s = [s] := by
  unfold segments SchemaLint.parts
  rw [parts_of_hides (needs_standsAt sep) hs]
  rfl

/-- A text that hides the separator stays in front of the first part of what follows. -/
theorem parts_hidden_append (hafter : start.after s = start) (hs : Hides (· == sep) s)
    (t : List Char) : SchemaLint.parts (standsAt sep) (s ++ t) =
      s.foldr Text.consHead (SchemaLint.parts (standsAt sep) t) := by
  unfold SchemaLint.parts
  rw [parts_append_of_hides (needs_standsAt sep) hs, hafter, parts_standsAt_before _ _ _ _ none]

theorem segments_append (hafter : start.after s = start) (hs : Hides (· == sep) s) (t : List Char) :
    segments sep (s ++ t) = s.foldr Text.consHead (segments sep t) := by
  obtain ⟨p, ps, hp⟩ := List.exists_cons_of_ne_nil (parts_ne_nil (standsAt sep) t)
  unfold segments
  rw [parts_hidden_append hafter hs, hp, foldr_consHead, foldr_consHead]

theorem cutAtTop?_hidden_append (hafter : start.after s = start) (hs : Hides (· == sep) s)
    (t : List Char) :
    cutAtTop? sep (s ++ t) = (cutAtTop? sep t).map fun (x, y) => (s ++ x, y) := by
  obtain ⟨p, ps, hp⟩ := List.exists_cons_of_ne_nil (parts_ne_nil (standsAt sep) t)
  rw [cutAtTop?, cutAtTop?, firstCut?, firstCut?, parts_hidden_append hafter hs, hp, foldr_consHead]
  cases ps <;> rfl

theorem segments_ne_nil (sep : Char) (s : List Char) : segments sep s ≠ [] := by
  unfold segments
  split
  · next h => exact absurd h (parts_ne_nil _ _)
  · exact List.cons_ne_nil _ _

theorem segments_append_sep (hsep : isPlain sep = true) (hafter : start.after s = start)
    (hs : Hides (· == sep) s) (t : List Char) :
    segments sep (s ++ sep :: t) = s :: segments sep t := by
  unfold segments
  rw [parts_append_sep hsep hafter hs]
  cases hp : SchemaLint.parts (standsAt sep) t with
  | nil => exact absurd hp (parts_ne_nil _ _)
  | cons p ps => simp [Text.consHead]

theorem cutAtTop?_append (hsep : isPlain sep = true) (hb : Balanced s)
    (hs : Hides (· == sep) s) (t : List Char) : cutAtTop? sep (s ++ sep :: t) = some (s, t) := by
  unfold cutAtTop? firstCut?
  rw [parts_append_sep hsep (hb.after_eq 0) hs]
  have hflat : (SchemaLint.parts (standsAt sep) t).flatten = t := flatten_parts _ _
  cases hp : SchemaLint.parts (standsAt sep) t with
  | nil => exact absurd hp (parts_ne_nil _ _)
  | cons p ps => rw [hp] at hflat; simp [Text.consHead, ← hflat]

theorem splitTop_of_hides (hs : Hides (· == sep) s) (htrim : Text.trim s ≠ []) :
    splitTop sep s = [Text.trim s] := by
  unfold splitTop
  rw [segments_of_hides hs]
  simp [htrim]

theorem splitTop_append_sep (hsep : isPlain sep = true) (hb : Balanced s)
    (hs : Hides (· == sep) s) (htrim : Text.trim s ≠ []) (t : List Char) :
    splitTop sep (s ++ sep :: t) = Text.trim s :: splitTop sep t := by
  unfold splitTop
  rw [segments_append_sep hsep (hb.after_eq 0) hs]
  simp [htrim]

end Separator

/-! ## Partners of brackets -/

section Partner

variable {depth : Nat} {n : Nesting} {s x y : List Char}

variable {c : Char}

/-- A text is cut in front of its first character or somewhere behind it. -/
theorem cutAtCloser?_cons (h : n.cutAtCloser? depth (c :: s) = some (x, y)) :
    (x = [] ∧ y = c :: s ∧ isCloser c = true ∧ (n.mark c).quoted = false ∧
        (n.mark c).depth = depth) ∨
      ∃ x', x = c :: x' ∧ (n.next c).cutAtCloser? depth s = some (x', y) ∧
        ¬(isCloser c = true ∧ (n.mark c).quoted = false ∧ (n.mark c).depth = depth) := by
  rw [Nesting.cutAtCloser?] at h
  split at h
  · next hhere =>
    obtain ⟨rfl, rfl⟩ := Prod.mk.inj (Option.some.inj h)
    exact .inl ⟨rfl, rfl, by simpa [and_assoc] using hhere⟩
  · next hlater =>
    obtain ⟨⟨x', y'⟩, hcut, heq⟩ := Option.map_eq_some_iff.mp h
    obtain ⟨rfl, rfl⟩ := Prod.mk.inj heq
    exact .inr ⟨x', rfl, hcut, by simpa using hlater⟩

/-- The bracket at which a text is cut closes the depth asked for. -/
theorem exists_of_cutAtCloser? (h : n.cutAtCloser? depth s = some (x, y)) :
    ∃ c t, y = c :: t ∧ s = x ++ c :: t ∧ isCloser c = true ∧
      ((n.after x).mark c).quoted = false ∧ ((n.after x).mark c).depth = depth := by
  induction s generalizing n x with
  | nil => cases h
  | cons c s ih =>
    rcases cutAtCloser?_cons h with ⟨rfl, rfl, hc⟩ | ⟨x', rfl, hcut, -⟩
    · exact ⟨c, s, rfl, rfl, hc⟩
    · obtain ⟨e, t, rfl, rfl, he⟩ := ih hcut
      exact ⟨e, t, rfl, rfl, he⟩

theorem append_of_cutAtCloser? (h : n.cutAtCloser? depth s = some (x, y)) : s = x ++ y := by
  obtain ⟨c, t, rfl, hs, -⟩ := exists_of_cutAtCloser? h
  exact hs

theorem exists_of_cutAtPartner?_from (h : n.cutAtPartner? s = some (x, y)) :
    ∃ c, s = c :: (x ++ y) := by
  cases s with
  | nil => cases h
  | cons c s =>
    rw [Nesting.cutAtPartner?] at h
    split at h
    · exact ⟨c, congrArg (c :: ·) (append_of_cutAtCloser? h)⟩
    · cases h

theorem exists_of_cutAtPartner? (h : cutAtPartner? s = some (x, y)) : ∃ c, s = c :: (x ++ y) :=
  exists_of_cutAtPartner?_from h

/-- What follows the bracket at which a text is cut does not change the cut. -/
theorem cutAtCloser?_append_right (h : n.cutAtCloser? depth s = some (x, y)) (t : List Char) :
    n.cutAtCloser? depth (s ++ t) = some (x, y ++ t) := by
  induction s generalizing n x with
  | nil => cases h
  | cons c s ih =>
    rw [List.cons_append, Nesting.cutAtCloser?]
    rcases cutAtCloser?_cons h with ⟨rfl, rfl, hhere⟩ | ⟨x', rfl, hcut, hlater⟩
    · rw [if_pos (by simpa [and_assoc] using hhere), List.cons_append]
    · rw [if_neg (by simpa using hlater), ih hcut]
      rfl

/-- In front of the first closing bracket of a depth a reader who started deeper stays deeper. -/
theorem lt_depth_of_cutAtCloser? (hn : depth < n.depth) (h : n.cutAtCloser? depth s = some (x, y)) :
    ∀ m ∈ n.marks x, depth < m.depth := by
  induction s generalizing n x with
  | nil => cases h
  | cons c s ih =>
    intro m hm
    rcases cutAtCloser?_cons h with ⟨rfl, -⟩ | ⟨x', rfl, hcut, hlater⟩
    · cases hm
    · have hhere : depth < (n.mark c).depth ∧ depth < (n.next c).depth := by
        unfold mark next at *
        grind
      rcases List.mem_cons.mp hm with rfl | hm
      · exact hhere.1
      · exact ih hhere.2 hcut m hm

end Partner

/-- A text without a closing bracket of the depth is passed over. -/
theorem cutAtCloser?_append {depth : Nat} {n : Nesting} {s : List Char}
    (h : ∀ m ∈ n.marks s, m.depth ≠ depth) (t : List Char) :
    n.cutAtCloser? depth (s ++ t) =
      ((n.after s).cutAtCloser? depth t).map fun (x, y) => (s ++ x, y) := by
  induction s generalizing n with
  | nil => simp
  | cons c s ih =>
    have hc : ((n.mark c).depth == depth) = false :=
      beq_eq_false_iff_ne.mpr (h _ List.mem_cons_self)
    have htail := ih (n := n.next c) fun m hm => h m (List.mem_cons_of_mem _ hm)
    rw [List.cons_append, cutAtCloser?, hc, Bool.and_false, if_neg Bool.false_ne_true, htail,
      Option.map_map]
    rfl

/-- The partner of a bracket closes the depth in front of it. -/
theorem cutAtPartner?_opener {o : Char} (d : Nat) (ho : isOpener o = true) (r : List Char) :
    (atDepth d).cutAtPartner? (o :: r) = (atDepth (d + 1)).cutAtCloser? d r := by
  rw [Nesting.cutAtPartner?, mark_opener d ho, next_opener d ho, ho]
  rfl

/-- At any depth, the partner of a bracket in front of a balanced text comes after that text. -/
theorem cutAtPartner?_atDepth {o c : Char} {s : List Char} (d : Nat) (ho : isOpener o = true)
    (hc : isCloser c = true) (hs : Balanced s) (t : List Char) :
    (atDepth d).cutAtPartner? (o :: (s ++ c :: t)) = some (s, c :: t) := by
  have hinner : ∀ m ∈ (atDepth (d + 1)).marks s, m.depth ≠ d := by
    intro m hm
    have := hs.le_depth (d + 1) m hm
    omega
  have hcloser : (atDepth (d + 1)).cutAtCloser? d (c :: t) = some ([], c :: t) := by
    simp [cutAtCloser?, mark_closer d hc, hc]
  rw [cutAtPartner?_opener d ho, cutAtCloser?_append hinner, hs.after_eq, hcloser]
  simp

theorem cutAtPartner?_bracketed {o c : Char} {s : List Char} (ho : isOpener o = true)
    (hc : isCloser c = true) (hs : Balanced s) (t : List Char) :
    cutAtPartner? (o :: (s ++ c :: t)) = some (s, c :: t) :=
  cutAtPartner?_atDepth 0 ho hc hs t

end SchemaLint
