import SchemaLint.Proofs.Nesting.Matching
import SchemaLint.Proofs.Shell.Document

/-!
# Values cut out of a text

A value in brackets is read in place by a reader who stands in front of it and knows what comes before
(`Value.inPlace?`), or it is cut out and read as a text of its own (`Value.ofText`). The brackets that it
begins and ends with are partners in both readings, since the text between them is balanced, so the two
agree (`inPlace?_eq_ofText`), and the text around the value may be anything.
-/

namespace SchemaLint

open Nesting Text

namespace Shell

/-- The value in brackets in front of a reader, up to the partner of its first bracket. -/
def Value.inPlace? (n : Nesting) (s : List Char) : Option Value :=
  match s, n.cutAtPartner? s with
  | '\x7b' :: _, some (x, '\x7d' :: _) => some (.object ('\x7b' :: (x ++ ['\x7d'])))
  | '[' :: _, some (x, ']' :: _) => some (.array x)
  | o :: _, some (x, c :: _) => some (.scalar (o :: (x ++ [c])))
  | _, _ => none

section InPlace

variable {o c : Char} {s : List Char}

/-- Brackets that are not both braces nor both square make a scalar of the text between them. -/
theorem ofText_mixed (ho : isOpener o = true) (hc : isCloser c = true) (hs : Balanced s)
    (hbraces : ¬(o = '\x7b' ∧ c = '\x7d')) (hsquare : ¬(o = '[' ∧ c = ']')) :
    Value.ofText (o :: (s ++ [c])) = .scalar (o :: (s ++ [c])) := by
  have htrim := (isItem_bracketed ho hc hs).trimmed.trim_eq
  unfold Value.ofText braced? bracketed?
  rw [htrim, enclosed?_of_balanced ho hc hs, enclosed?_of_balanced ho hc hs, if_neg hbraces,
    if_neg hsquare]
  rfl

/-- A balanced text in brackets is the same value wherever it stands. -/
theorem inPlace?_eq_ofText (d : Nat) (ho : isOpener o = true) (hc : isCloser c = true)
    (hs : Balanced s) (t : List Char) :
    Value.inPlace? (atDepth d) (o :: (s ++ c :: t)) = some (Value.ofText (o :: (s ++ [c]))) := by
  have hcut := cutAtPartner?_atDepth d ho hc hs t
  unfold Value.inPlace?
  rw [hcut]
  by_cases hbraces : o = '\x7b' ∧ c = '\x7d'
  · obtain ⟨rfl, rfl⟩ := hbraces
    rw [ofText_braced hs]
    rfl
  · by_cases hsquare : o = '[' ∧ c = ']'
    · obtain ⟨rfl, rfl⟩ := hsquare
      rw [ofText_bracketed hs]
      rfl
    · rw [ofText_mixed ho hc hs hbraces hsquare]
      grind

end InPlace

end Shell

/-- The partner of an opening bracket outside quotes is the first closing bracket outside quotes such
that the brackets outside quotes between the two are paired, their kinds ignored, whatever the rest of
the text is. The two with what is between them, cut out, are partners as well, and are the value that
they are in place. -/
theorem partner_isLeast_paired {s : List Char} {i : Nat} {o : Char} (hat : UnquotedAt s i o)
    (ho : isOpener o = true) :
    (∀ j, partnerOffset? s i = some j ↔ IsLeast {k | PairedUpTo s i k} j) ∧
    ∀ j, partnerOffset? s i = some j → ∃ a x c t, s = a ++ o :: (x ++ c :: t) ∧ utf8Length a = i ∧
      utf8Length (a ++ o :: x) = j ∧
      partnerOffset? (o :: (x ++ [c])) 0 = some (utf8Length (o :: x)) ∧
      Shell.Value.inPlace? (start.after a) (o :: (x ++ c :: t)) =
        some (Shell.Value.ofText (o :: (x ++ [c]))) := by
  obtain ⟨a, r, hs, rfl, hquoted⟩ := hat
  refine ⟨fun j => partnerOffset?_eq_some_iff_isLeast hs ho hquoted, fun j hj => ?_⟩
  rw [hs] at hj
  obtain ⟨x, c, t, rfl, hend, hc, hcquoted, hword⟩ := exists_of_partnerOffset? ho hquoted hj
  have hx : Balanced x := balanced_between ho hquoted hcquoted hword
  obtain ⟨d, hafter, -⟩ := exists_next_opener ho hquoted
  refine ⟨a, x, c, t, hs, rfl, hend, (partnerOffset?_eq_some_iff ho hc).mpr hx, ?_⟩
  rw [hafter]
  exact Shell.inPlace?_eq_ofText d ho hc hx t

/-- Closing brackets that close nothing in front of an array, in it one in quotes and two that are of
another kind than what they close, and behind it a quote left open. -/
theorem partner_isLeast_paired_stray :
    let s := ")] é[b: '\x7d', (é\x7d \x7b)] , 'x".toList
    UnquotedAt s 5 '[' ∧ isOpener '[' = true ∧ IsLeast {k | PairedUpTo s 5 k} 21 := by
  intro s
  have hat : UnquotedAt s 5 '[' := ⟨")] é".toList, "b: '\x7d', (é\x7d \x7b)] , 'x".toList, by decide⟩
  exact ⟨hat, rfl, ((partner_isLeast_paired hat rfl).1 21).mp (by decide)⟩

end SchemaLint
