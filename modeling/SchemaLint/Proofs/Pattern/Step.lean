import Mathlib.Data.Nat.Bitwise
import SchemaLint.Pattern.Regular

/-!
# Steps on sets of places

A step on sets of places computes a relation between places if it carries a set to all places that
some member is related to (`Overlay.Computes`). Steps one after another compute related places in as
many steps (`Overlay.Computes.testBit_times`). A repetition that only adds new places finds what up to
so many steps lead to (`Overlay.Computes.testBit_spread`); since places lie behind each other, no way
is longer than the text, so it computes any number of steps (`Overlay.Computes.repeated`).
-/

namespace SchemaLint.Pattern

/-! ## Steps -/

/-- Related in a number of steps. -/
def Steps (R : Nat → Nat → Prop) : Nat → Nat → Nat → Prop
  | 0, i, j => i = j
  | k + 1, i, j => ∃ l, R i l ∧ Steps R k l j

section Steps

variable {R : Nat → Nat → Prop} {i j k l : Nat}

theorem Steps.trans {k' : Nat} (h : Steps R k i l) (h' : Steps R k' l j) : Steps R (k + k') i j := by
  induction k generalizing i with
  | zero =>
    obtain rfl : i = l := h
    rwa [Nat.zero_add]
  | succ k ih =>
    obtain ⟨i', hi, hl⟩ := h
    rw [Nat.add_right_comm]
    exact ⟨i', hi, ih hl⟩

theorem Steps.exists_of_add {k' : Nat} (h : Steps R (k + k') i j) :
    ∃ l, Steps R k i l ∧ Steps R k' l j := by
  induction k generalizing i with
  | zero => exact ⟨i, rfl, by rwa [Nat.zero_add] at h⟩
  | succ k ih =>
    rw [Nat.add_right_comm] at h
    obtain ⟨i', hi, hj⟩ := h
    obtain ⟨l, hl, hlj⟩ := ih hj
    exact ⟨l, ⟨i', hi, hl⟩, hlj⟩

/-- Where no step leads back, steps that do not move can be left out. -/
theorem Steps.exists_le (hR : ∀ i j, R i j → i ≤ j) (h : Steps R k i j) :
    i ≤ j ∧ ∃ k' ≤ j - i, Steps R k' i j := by
  induction k generalizing i with
  | zero =>
    obtain rfl : i = j := h
    exact ⟨Nat.le_refl i, 0, Nat.zero_le _, rfl⟩
  | succ k ih =>
    obtain ⟨i', hi, hj⟩ := h
    have hle := hR i i' hi
    obtain ⟨hle', k', hk', hsteps⟩ := ih hj
    refine ⟨Nat.le_trans hle hle', ?_⟩
    by_cases heq : i = i'
    · subst heq
      exact ⟨k', hk', hsteps⟩
    · exact ⟨k' + 1, by omega, i', hi, hsteps⟩

end Steps

namespace Overlay

/-! ## Sets of places -/

/-- All members are places of a text of a length. -/
def Within (n m : Nat) : Prop :=
  ∀ i, m.testBit i = true → i ≤ n

/-- A step on sets of places carries a set to the places that its members are related to, and these
lie ahead in the text. -/
structure Computes (n : Nat) (step : Nat → Nat) (R : Nat → Nat → Prop) : Prop where
  forward : ∀ i j, R i j → i ≤ j ∧ j ≤ n
  testBit_iff : ∀ m, Within n m → ∀ j, (step m).testBit j = true ↔ ∃ i, m.testBit i = true ∧ R i j

section Sets

variable {n m m' i j : Nat} {step : Nat → Nat} {R : Nat → Nat → Prop}

theorem eq_zero_iff : m = 0 ↔ ∀ i, m.testBit i = false := by
  constructor
  · rintro rfl i
    exact Nat.zero_testBit i
  · exact Nat.zero_of_testBit_eq_false

theorem testBit_without : (without m m').testBit i = (m.testBit i && !m'.testBit i) := by
  rw [without, Nat.testBit_xor, Nat.testBit_or]
  cases m.testBit i <;> cases m'.testBit i <;> rfl

theorem Within.or (h : Within n m) (h' : Within n m') : Within n (m ||| m') := by
  intro i hi
  rw [Nat.testBit_or, Bool.or_eq_true] at hi
  exact hi.elim (h i) (h' i)

theorem Computes.within (h : Computes n step R) (hm : Within n m) : Within n (step m) := by
  intro j hj
  obtain ⟨i, -, hR⟩ := (h.testBit_iff m hm j).mp hj
  exact (h.forward i j hR).2

/-- Steps one after another. -/
theorem Computes.testBit_times (h : Computes n step R) (hm : Within n m) (k : Nat) :
    Within n (times step k m) ∧ ∀ j, (times step k m).testBit j = true ↔
      ∃ i, m.testBit i = true ∧ Steps R k i j := by
  induction k generalizing m with
  | zero => exact ⟨hm, fun j => by simp [times, Steps]⟩
  | succ k ih =>
    rw [times]
    by_cases hzero : m = 0
    · subst hzero
      exact ⟨fun i hi => by simp at hi, fun j => by simp⟩
    · rw [if_neg (by simpa using hzero)]
      obtain ⟨hwithin, hiff⟩ := ih (h.within hm)
      refine ⟨hwithin, fun j => ?_⟩
      rw [hiff]
      simp only [h.testBit_iff m hm, Steps]
      constructor
      · rintro ⟨l, ⟨i, hi, hR⟩, hsteps⟩
        exact ⟨i, hi, l, hR, hsteps⟩
      · rintro ⟨i, hi, l, hR, hsteps⟩
        exact ⟨l, ⟨i, hi, hR⟩, hsteps⟩

/-- What has been found goes on only from what was added last. -/
structure Frontier (R : Nat → Nat → Prop) (added found : Nat) : Prop where
  added_found : ∀ i, added.testBit i = true → found.testBit i = true
  closed : ∀ i j, found.testBit i = true → added.testBit i = false → R i j → found.testBit j = true

/-- All places that those found lead to are found once the new ones are. -/
theorem Frontier.step_found {added found : Nat} (hfrontier : Frontier R added found)
    (h : Computes n step R) (hfound : Within n found) (hi : found.testBit i = true) (hR : R i j) :
    (found ||| without (step added) found).testBit j = true := by
  have hadded : Within n added := fun i hi => hfound i (hfrontier.added_found i hi)
  rw [Nat.testBit_or, Bool.or_eq_true, testBit_without, Bool.and_eq_true, Bool.not_eq_true']
  cases hin : added.testBit i with
  | false => exact .inl (hfrontier.closed i j hi hin hR)
  | true =>
    have hstep : (step added).testBit j = true := (h.testBit_iff added hadded j).mpr ⟨i, hin, hR⟩
    cases hj : found.testBit j with
    | false => exact .inr ⟨hstep, rfl⟩
    | true => exact .inl rfl

/-- The places that are new are the next frontier. -/
theorem Frontier.next {added found : Nat} (hfrontier : Frontier R added found)
    (h : Computes n step R) (hfound : Within n found) :
    Frontier R (without (step added) found) (found ||| without (step added) found) := by
  refine ⟨fun i hi => by simp [hi], fun i j hi hold hR => ?_⟩
  rw [Nat.testBit_or, hold, Bool.or_false] at hi
  exact hfrontier.step_found h hfound hi hR

theorem testBit_of_steps {k : Nat} (hclosed : ∀ i j, m.testBit i = true → R i j → m.testBit j = true)
    (hi : m.testBit i = true) (hsteps : Steps R k i j) : m.testBit j = true := by
  induction k generalizing i with
  | zero => exact hsteps ▸ hi
  | succ k ih =>
    obtain ⟨l, hR, hsteps⟩ := hsteps
    exact ih (hclosed i l hi hR) hsteps

/-- Spreading finds what up to `k` steps lead to. The invariant is that all places found but those added
last lead to places found. -/
theorem Computes.testBit_spread (h : Computes n step R) {added found : Nat}
    (hfrontier : Frontier R added found) (hfound : Within n found) (k : Nat) :
    (spread step k added found).testBit j = true ↔
      ∃ k' ≤ k, ∃ i, found.testBit i = true ∧ Steps R k' i j := by
  induction k generalizing added found with
  | zero => simp [spread, Steps]
  | succ k ih =>
    have hadded : Within n added := fun i hi => hfound i (hfrontier.added_found i hi)
    have hstep : ∀ i j, found.testBit i = true → R i j →
        (found ||| without (step added) found).testBit j = true :=
      fun i j => hfrontier.step_found h hfound
    rw [spread]
    by_cases hnew : without (step added) found = 0
    · rw [if_pos (by simpa using hnew)]
      rw [hnew, Nat.or_zero] at hstep
      constructor
      · exact fun hj => ⟨0, Nat.zero_le _, j, hj, rfl⟩
      · rintro ⟨k', -, i, hi, hsteps⟩
        exact testBit_of_steps hstep hi hsteps
    · have hwithin : Within n (without (step added) found) := by
        intro i hi
        rw [testBit_without, Bool.and_eq_true] at hi
        exact h.within hadded i hi.1
      rw [if_neg (by simpa using hnew), ih (hfrontier.next h hfound) (hfound.or hwithin)]
      constructor
      · rintro ⟨k', hk', i, hi, hsteps⟩
        rw [Nat.testBit_or, Bool.or_eq_true, testBit_without, Bool.and_eq_true] at hi
        rcases hi with hi | ⟨hi, -⟩
        · exact ⟨k', Nat.le_succ_of_le hk', i, hi, hsteps⟩
        · obtain ⟨i', hi', hR⟩ := (h.testBit_iff added hadded i).mp hi
          exact ⟨k' + 1, Nat.succ_le_succ hk', i', hfrontier.added_found i' hi', i, hR, hsteps⟩
      · rintro ⟨k', hk', i, hi, hsteps⟩
        cases k' with
        | zero => exact ⟨0, Nat.zero_le _, i, by simp [hi], hsteps⟩
        | succ k' =>
          obtain ⟨l, hR, hsteps⟩ := hsteps
          exact ⟨k', Nat.le_of_succ_le_succ hk', l, hstep i l hi hR, hsteps⟩

theorem Computes.le_of_steps (h : Computes n step R) {k : Nat} (hi : i ≤ n) (hsteps : Steps R k i j) :
    j ≤ n := by
  induction k generalizing i with
  | zero => exact hsteps ▸ hi
  | succ k ih =>
    obtain ⟨l, hR, hsteps⟩ := hsteps
    exact ih (h.forward i l hR).2 hsteps

/-- A repetition computes as many steps as it may be repeated. -/
theorem Computes.repeated (h : Computes n step R) (lo : Nat) (bound : Option Nat) :
    Computes n (repeated n step lo bound) fun i j =>
      i ≤ n ∧ ∃ k, lo ≤ k ∧ (∀ b ∈ bound, k ≤ max lo b) ∧ Steps R k i j := by
  have hle : ∀ i j, R i j → i ≤ j := fun i j hR => (h.forward i j hR).1
  constructor
  · rintro i j ⟨hi, k, -, -, hsteps⟩
    exact ⟨(hsteps.exists_le hle).1, h.le_of_steps hi hsteps⟩
  · intro m hm j
    obtain ⟨hwithin, htimes⟩ := h.testBit_times hm lo
    have hfrontier : Frontier R (times step lo m) (times step lo m) :=
      ⟨fun _ hi => hi, fun i j hi hout => by rw [hi] at hout; cases hout⟩
    rw [Overlay.repeated, h.testBit_spread hfrontier hwithin]
    simp only [htimes]
    constructor
    · rintro ⟨k, hk, l, ⟨i, hi, hfirst⟩, hlater⟩
      refine ⟨i, hi, hm i hi, lo + k, Nat.le_add_right lo k, ?_, hfirst.trans hlater⟩
      rintro b rfl
      have hbound : k ≤ b - lo := hk
      omega
    · rintro ⟨i, hi, hin, k, hlo, hbound, hsteps⟩
      obtain ⟨k, rfl⟩ := Nat.exists_eq_add_of_le hlo
      obtain ⟨l, hfirst, hlater⟩ := hsteps.exists_of_add
      cases bound with
      | some b =>
        have hmax := hbound b rfl
        exact ⟨k, (by omega : k ≤ b - lo), l, ⟨i, hi, hfirst⟩, hlater⟩
      | none =>
        -- Steps that do not move are left out, so there are no more of them than there are places.
        obtain ⟨-, k', hk', hsteps⟩ := hlater.exists_le hle
        have hj := h.le_of_steps hin (hfirst.trans hlater)
        exact ⟨k', (by omega : k' ≤ n + 1), l, ⟨i, hi, hfirst⟩, hsteps⟩

end Sets

end Overlay

end SchemaLint.Pattern
