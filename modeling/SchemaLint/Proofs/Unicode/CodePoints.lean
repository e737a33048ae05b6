import Mathlib.Data.List.Basic
import SchemaLint.Text.Blank
import SchemaLint.Unicode.Word

/-!
# Membership in sets of code points

The bounds read from a table ascend, so the search for a code point among them ends at the only
place where they can be split into those up to it and those above it (`countUpTo_eq`). Membership is
therefore known from reading the table up to the code point (`contains_ofGaps`), without the set as
a whole. This tells that no blank is a word character (`isWord_of_isBlank`).
-/

namespace SchemaLint.Unicode

namespace CodePoints

/-- The first `k` bounds are those up to `n`. -/
structure SplitsAt (bounds : Array Nat) (n k : Nat) : Prop where
  le_size : k ≤ bounds.size
  iff_lt : ∀ i, i < bounds.size → (bounds.getD i 0 ≤ n ↔ i < k)

theorem countUpTo_eq {bounds : Array Nat} {n k : Nat} (h : SplitsAt bounds n k)
    {fuel lo hi : Nat} (hlo : lo ≤ k) (hk : k ≤ hi) (hhi : hi ≤ bounds.size)
    (hfuel : hi - lo ≤ fuel) : countUpTo bounds n fuel lo hi = k := by
  induction fuel generalizing lo hi with
  | zero =>
    rw [countUpTo]
    omega
  | succ fuel ih =>
    rw [countUpTo]
    split
    · next hlt =>
      have hmid := h.iff_lt ((lo + hi) / 2) (by omega)
      dsimp only
      split
      · next hle =>
        have := hmid.mp hle
        exact ih (by omega) hk hhi (by omega)
      · next hgt =>
        have := mt hmid.mpr hgt
        exact ih hlo (by omega) (by omega) (by omega)
    · omega

namespace SplitsAt

variable {bounds : Array Nat} {n v : Nat}

theorem getD_push_lt {i : Nat} (hi : i < bounds.size) :
    (bounds.push v).getD i 0 = bounds.getD i 0 := by
  simp [Array.getElem_push_lt, hi, Nat.lt_succ_of_lt hi]

theorem getD_push_size : (bounds.push v).getD bounds.size 0 = v := by
  simp

theorem push_above {k : Nat} (h : SplitsAt bounds n k) (hv : n < v) :
    SplitsAt (bounds.push v) n k := by
  have hk := h.le_size
  refine ⟨by rw [Array.size_push]; omega, fun i hi => ?_⟩
  rw [Array.size_push] at hi
  by_cases hsize : i = bounds.size
  · subst hsize
    rw [getD_push_size]
    omega
  · rw [getD_push_lt (by omega)]
    exact h.iff_lt i (by omega)

theorem push_up_to (h : SplitsAt bounds n bounds.size) (hv : v ≤ n) :
    SplitsAt (bounds.push v) n (bounds.push v).size := by
  refine ⟨Nat.le_refl _, fun i hi => ?_⟩
  rw [Array.size_push] at hi ⊢
  by_cases hsize : i = bounds.size
  · subst hsize
    rw [getD_push_size]
    omega
  · rw [getD_push_lt (by omega)]
    have := h.iff_lt i (by omega)
    omega

end SplitsAt

/-! ## Reading a table up to a code point -/

/-- Whether the number of bounds up to `n` is odd, from a table of gaps: the last bound, the gap
that is being read and what is known so far. Nothing is read after a bound above `n`. -/
def oddUpTo (n : Nat) : Nat → Option Nat → Bool → List Char → Bool
  | last, gap, odd, [] =>
    match gap with
    | some g => if last + g ≤ n then !odd else odd
    | none => odd
  | last, gap, odd, c :: s =>
    match hexDigit? c, gap with
    | some d, _ => oddUpTo n last (some (gap.getD 0 * 16 + d)) odd s
    | none, some g => if last + g ≤ n then oddUpTo n (last + g) none (!odd) s else odd
    | none, none => oddUpTo n last none odd s

/-- Bounds read after one above `n` do not change where the bounds are split. -/
theorem splitsAt_readGaps_above {n : Nat} (s : List Char) {bounds : Array Nat} {k last : Nat}
    (gap : Option Nat) (h : SplitsAt bounds n k) (hlast : n < last) :
    SplitsAt (readGaps bounds last gap s) n k := by
  induction s generalizing bounds last gap with
  | nil =>
    cases gap with
    | none => exact h
    | some g => exact h.push_above (by omega)
  | cons c s ih =>
    unfold readGaps
    cases hexDigit? c with
    | some d => exact ih _ h hlast
    | none =>
      cases gap with
      | none => exact ih _ h hlast
      | some g => exact ih none (h.push_above (by omega)) (by omega)

theorem odd_size_push (bounds : Array Nat) (v : Nat) :
    ((bounds.push v).size % 2 == 1) = !(bounds.size % 2 == 1) := by
  rw [Array.size_push, Bool.eq_iff_iff, Bool.not_eq_true', beq_iff_eq, beq_eq_false_iff_ne]
  omega

/-- While all bounds so far are up to `n`, what is left of the table decides where they split. -/
theorem exists_splitsAt_readGaps {n : Nat} (s : List Char) {bounds : Array Nat} (last : Nat)
    (gap : Option Nat) (h : SplitsAt bounds n bounds.size) :
    ∃ k, SplitsAt (readGaps bounds last gap s) n k ∧
      (k % 2 == 1) = oddUpTo n last gap (bounds.size % 2 == 1) s := by
  induction s generalizing bounds last gap with
  | nil =>
    cases gap with
    | none => exact ⟨bounds.size, h, rfl⟩
    | some g =>
      simp only [readGaps, oddUpTo, Option.map_some, Option.getD_some]
      split
      · next hle => exact ⟨_, h.push_up_to hle, odd_size_push bounds (last + g)⟩
      · next hgt => exact ⟨bounds.size, h.push_above (by omega), rfl⟩
  | cons c s ih =>
    cases hc : hexDigit? c with
    | some d =>
      simp only [readGaps, oddUpTo, hc]
      exact ih _ _ h
    | none =>
      cases gap with
      | none =>
        simp only [readGaps, oddUpTo, hc]
        exact ih _ none h
      | some g =>
        simp only [readGaps, oddUpTo, hc]
        split
        · next hle =>
          rw [← odd_size_push bounds (last + g)]
          exact ih _ none (h.push_up_to hle)
        · next hgt =>
          exact ⟨bounds.size,
            splitsAt_readGaps_above s none (h.push_above (by omega)) (by omega), rfl⟩

/-- Membership in a set is known from reading its table up to the code point. -/
theorem contains_ofGaps {table : String} {s : List Char} (hs : table = String.ofList s) (n : Nat) :
    (ofGaps table).contains n = oddUpTo n 0 none false s := by
  subst hs
  have hempty : SplitsAt #[] n 0 := ⟨Nat.le_refl 0, fun i hi => absurd hi (Nat.not_lt_zero i)⟩
  obtain ⟨k, hk, hodd⟩ := exists_splitsAt_readGaps s 0 none hempty
  have hcount : countUpTo _ n (readGaps #[] 0 none s).size 0 _ = k :=
    countUpTo_eq hk (Nat.zero_le k) hk.le_size (Nat.le_refl _) (Nat.sub_le _ _)
  unfold contains ofGaps
  rw [String.toList_ofList, hcount]
  exact hodd

end CodePoints

/-! ## Blanks and words -/

/-- The blanks outside ASCII. -/
def wideBlanks : List Nat :=
  [0x85, 0xA0, 0x1680, 0x2000, 0x2001, 0x2002, 0x2003, 0x2004, 0x2005, 0x2006, 0x2007, 0x2008,
   0x2009, 0x200A, 0x2028, 0x2029, 0x202F, 0x205F, 0x3000]

theorem mem_wideBlanks {c : Char} (h : Text.isBlank c = true) (hc : ¬ c.toNat < 128) :
    c.toNat ∈ wideBlanks := by
  simp only [Text.isBlank, Bool.or_eq_true, Bool.and_eq_true, decide_eq_true_eq, beq_iff_eq] at h
  simp only [wideBlanks, List.mem_cons, List.not_mem_nil, or_false]
  omega

set_option maxRecDepth 100000 in
/-- No property of word characters holds of a blank. -/
theorem contains_wideBlanks {p : Property} (hp : p ∈ wordProperties) :
    ∀ n ∈ wideBlanks, p.points.contains n = false := by
  simp only [wordProperties, List.mem_cons, List.not_mem_nil, or_false] at hp
  rcases hp with rfl | rfl | rfl | rfl | rfl | rfl | rfl <;>
    · intro n hn
      refine (CodePoints.contains_ofGaps rfl n).trans ?_
      revert n
      decide +kernel

/-- No blank is a word character. -/
theorem isWord_of_isBlank {c : Char} (h : Text.isBlank c = true) : isWord c = false := by
  unfold isWord
  split
  · next hc =>
    obtain ⟨n, hn, rfl⟩ : ∃ n, n < 128 ∧ c = Char.ofNat n :=
      ⟨c.toNat, hc, (Char.ofNat_toNat c).symm⟩
    clear hc
    revert n
    decide
  · next hc =>
    rw [List.any_eq_false]
    intro p hp
    rw [contains_wideBlanks hp _ (mem_wideBlanks h hc)]
    exact Bool.false_ne_true

theorem isBlank_of_isWord {c : Char} (h : isWord c = true) : Text.isBlank c = false := by
  rw [← Bool.not_eq_true]
  intro hblank
  rw [isWord_of_isBlank hblank] at h
  cases h

end SchemaLint.Unicode
