import Mathlib.Order.Bounds.Defs
import SchemaLint.Proofs.Balance.Partner

/-!
# Texts between a bracket and its partner

The partner of an opening bracket is found by depth. Behind the bracket a reader is deeper than in front
of it, so until he meets its partner every closing bracket closes one that is open above it. The brackets
that he still has to read close these one after the other, with paired words between them
(`Nesting.Closings`).

So a bracket and its partner have paired brackets between them, their kinds ignored, and in any text,
balanced or not, the partner is the first closing bracket of which this holds
(`partnerOffset?_eq_some_iff_isLeast`). Two brackets around a text are partners exactly when the text is
balanced (`partnerOffset?_eq_some_iff`).
-/

namespace SchemaLint

open Nesting Text

/-! ## In front of a closing bracket -/

namespace Nesting

/-- A word that closes a number of brackets, with paired words in front of, between and behind the
closing brackets. -/
def Closings : Nat → List Char → Prop
  | 0, word => Paired word
  | k + 1, word => ∃ s c t, word = s ++ c :: t ∧ Paired s ∧ isCloser c = true ∧ Closings k t

section Closings

variable {n : Nesting} {depth k : Nat} {c o : Char} {word s x y : List Char}

/-- An opening bracket in front of a word that closes it joins the first paired word. -/
theorem Closings.opener (ho : isOpener o = true) (h : Closings (k + 1) word) :
    Closings k (o :: word) := by
  obtain ⟨s, c, t, rfl, hs, hc, ht⟩ := h
  cases k with
  | zero => exact .enclosed ho hc hs ht
  | succ k =>
    obtain ⟨s', c', t', rfl, hs', hc', ht'⟩ := ht
    exact ⟨o :: (s ++ c :: s'), c', t', by simp, .enclosed ho hc hs hs', hc', ht'⟩

theorem Closings.closer (hc : isCloser c = true) (h : Closings k word) :
    Closings (k + 1) (c :: word) :=
  ⟨[], c, word, rfl, .nil, hc, h⟩

/-- In front of the first closing bracket of a depth the brackets close what is open above it. -/
theorem closings_of_cutAtCloser? (hn : n.depth = depth + 1 + k)
    (h : n.cutAtCloser? depth s = some (x, y)) : Closings k (n.brackets x) := by
  -- The induction is on the text, for every number of brackets open above the depth.
  induction s generalizing n k x with
  | nil => cases h
  | cons c s ih =>
    rcases cutAtCloser?_cons h with ⟨rfl, -, hc, hquoted, hdepth⟩ | ⟨x', rfl, hcut, hlater⟩
    · rw [depth_mark_closer (quote_eq_none_of_mark hquoted) hc] at hdepth
      obtain rfl : k = 0 := by omega
      exact .nil
    · rw [brackets_cons]
      split
      · next hbracket =>
        obtain ⟨hquoted, hbracket⟩ := hbracket
        have hquote := quote_eq_none_of_mark hquoted
        by_cases ho : isOpener c = true
        · have hnext : (n.next c).depth = depth + 1 + (k + 1) := by
            rw [depth_next_opener hquote ho, hn, Nat.add_assoc]
          exact (ih hnext hcut).opener ho
        · have hc : isCloser c = true := by simpa [isBracket, ho] using hbracket
          have hne : n.depth - 1 ≠ depth := by
            intro hdepth
            exact hlater ⟨hc, hquoted, (depth_mark_closer hquote hc).trans hdepth⟩
          obtain ⟨j, rfl⟩ : ∃ j, k = j + 1 := Nat.exists_eq_add_one_of_ne_zero (by omega)
          have hnext : (n.next c).depth = depth + 1 + j := by
            rw [depth_next_closer hquote hc]
            omega
          exact (ih hnext hcut).closer hc
      · next hbracket =>
        have hnext : (n.next c).depth = n.depth := (levels_singleton hbracket).depth_eq
        exact ih (hnext.trans hn) hcut

end Closings

end Nesting

/-! ## Partners in any text -/

/-- A closing bracket outside quotes at an offset of a text, with paired brackets outside quotes between
an earlier offset and it, whatever the kinds of the brackets and wherever the text is not balanced. -/
def PairedUpTo (s : List Char) (i j : Nat) : Prop :=
  ∃ a o x c t, s = a ++ o :: (x ++ c :: t) ∧ utf8Length a = i ∧ utf8Length (a ++ o :: x) = j ∧
    isCloser c = true ∧ ((start.after (a ++ o :: x)).mark c).quoted = false ∧
      Paired ((start.after (a ++ [o])).brackets x)

section Partner

variable {a r x s : List Char} {o c : Char} {j : Nat}

/-- Between an opening bracket and a closing one, both outside quotes, a text with paired brackets is
balanced. -/
theorem balanced_between (ho : isOpener o = true) (hoquoted : ((start.after a).mark o).quoted = false)
    (hcquoted : ((start.after (a ++ o :: x)).mark c).quoted = false)
    (hword : Paired ((start.after (a ++ [o])).brackets x)) : Balanced x := by
  rw [after_append, after_cons, after_nil, brackets_between ho hoquoted] at hword
  exact balanced_of_paired (openQuote?_between ho hoquoted hcquoted) hword

/-- The partner that is found is a closing bracket outside quotes, and the brackets in front of it are
paired. -/
theorem exists_of_partnerOffset? (ho : isOpener o = true)
    (hquoted : ((start.after a).mark o).quoted = false)
    (h : partnerOffset? (a ++ o :: r) (utf8Length a) = some j) :
    ∃ x c t, r = x ++ c :: t ∧ utf8Length (a ++ o :: x) = j ∧ isCloser c = true ∧
      ((start.after (a ++ o :: x)).mark c).quoted = false ∧
        Paired ((start.after (a ++ [o])).brackets x) := by
  obtain ⟨d, hafter, hnext⟩ := exists_next_opener ho hquoted
  have hoffset := partnerOffset?_append start 0 a o r
  rw [Nat.zero_add, hafter, cutAtPartner?_opener d ho] at hoffset
  rw [SchemaLint.partnerOffset?, hoffset] at h
  obtain ⟨⟨x, y⟩, hcut, rfl⟩ := Option.map_eq_some_iff.mp h
  obtain ⟨c, t, rfl, hr, hc, hcquoted, -⟩ := exists_of_cutAtCloser? hcut
  refine ⟨x, c, t, hr, ?_, hc, ?_, ?_⟩
  · rw [utf8Length_append, utf8Length, ← Nat.add_assoc]
  · rwa [after_append, after_cons, hnext]
  · rw [after_append, after_cons, after_nil, hnext]
    exact closings_of_cutAtCloser? (k := 0) rfl hcut

/-- A closing bracket in front of which the brackets are paired is the partner. -/
theorem partnerOffset?_of_pairedUpTo (hs : s = a ++ o :: r) (ho : isOpener o = true)
    (hquoted : ((start.after a).mark o).quoted = false) (h : PairedUpTo s (utf8Length a) j) :
    partnerOffset? s (utf8Length a) = some j := by
  obtain ⟨a', o', x, c, t, hs', hi, rfl, hc, hcquoted, hword⟩ := h
  rw [hs] at hs'
  obtain rfl := append_inj_of_utf8Length hs' hi.symm
  obtain ⟨rfl, rfl⟩ := List.cons.inj (List.append_cancel_left hs')
  rw [hs]
  exact partnerOffset?_balanced ho hquoted hc (balanced_between ho hquoted hcquoted hword)

/-- The partner of an opening bracket outside quotes is the first closing bracket outside quotes in front
of which the brackets are paired, and the only one. -/
theorem partnerOffset?_eq_some_iff_isLeast (hs : s = a ++ o :: r) (ho : isOpener o = true)
    (hquoted : ((start.after a).mark o).quoted = false) :
    partnerOffset? s (utf8Length a) = some j ↔ IsLeast {k | PairedUpTo s (utf8Length a) k} j := by
  constructor
  · intro h
    refine ⟨?_, fun k hk => ?_⟩
    · rw [hs] at h
      obtain ⟨x, c, t, rfl, hj, hc, hcquoted, hword⟩ := exists_of_partnerOffset? ho hquoted h
      exact ⟨a, o, x, c, t, hs, rfl, hj, hc, hcquoted, hword⟩
    · have hpartner := partnerOffset?_of_pairedUpTo hs ho hquoted hk
      exact Nat.le_of_eq (Option.some.inj (h.symm.trans hpartner))
  · intro h
    exact partnerOffset?_of_pairedUpTo hs ho hquoted h.1

/-- Two brackets around a text are partners if and only if the text is balanced. -/
theorem partnerOffset?_eq_some_iff (ho : isOpener o = true) (hc : isCloser c = true) :
    partnerOffset? (o :: (x ++ [c])) 0 = some (utf8Length (o :: x)) ↔ Balanced x := by
  have hquoted : ((start.after []).mark o).quoted = false := by rw [after_nil, start_eq, mark_opener 0 ho]
  constructor
  · intro h
    obtain ⟨y, e, t, hsplit, hlen, -, hequoted, hword⟩ :=
      exists_of_partnerOffset? (a := []) ho hquoted h
    obtain rfl : x = y := by
      apply append_inj_of_utf8Length hsplit
      simpa [utf8Length] using hlen.symm
    exact balanced_between ho hquoted hequoted hword
  · intro h
    exact partnerOffset?_balanced (a := []) (t := []) ho hquoted hc h

end Partner

end SchemaLint
