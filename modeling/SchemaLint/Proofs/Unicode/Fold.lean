import SchemaLint.Pattern.CharSet
import SchemaLint.Proofs.Text
import SchemaLint.Unicode.Word

/-!
# Folding of ASCII letters

The table of folds leads from a character outside ASCII to `S`, to `K` or to another one outside
ASCII. So a letter other than these two folds with its other case and with nothing else, and a
pattern may ask for it in any case by comparing lower case letters.
-/

namespace SchemaLint.Unicode

open Text (forall_ascii toNat_lt_of_isAlpha)

/-- The code points that the table of folds leads to: characters outside ASCII, `K` and `S`. -/
def IsFoldTarget (n : Nat) : Prop :=
  n.isValidChar ∧ (128 ≤ n ∨ (Char.ofNat n).toLower = 'k' ∨ (Char.ofNat n).toLower = 's')

/-- Tells whether a run leads from characters outside ASCII to targets of folds. -/
def FoldRun.leadsToTargets (r : FoldRun) : Bool :=
  128 ≤ r.first && r.first ≤ r.last &&
    ((r.last + r.step < 0xD800) || (0xDFFF < r.first + r.step && r.last + r.step < 0x110000)) &&
    (128 ≤ r.first + r.step ||
      (r.first == r.last && (r.first + r.step == 'K'.toNat || r.first + r.step == 'S'.toNat)))

theorem foldRuns_leadToTargets : foldRuns.all FoldRun.leadsToTargets = true := by
  decide +kernel

theorem FoldRun.isFoldTarget {r : FoldRun} (hr : r.leadsToTargets = true) {n : Nat}
    (hlo : r.first ≤ n) (hhi : n ≤ r.last) : IsFoldTarget (n + r.step).toNat := by
  simp only [leadsToTargets, Bool.and_eq_true, Bool.or_eq_true, decide_eq_true_eq, beq_iff_eq] at hr
  obtain ⟨⟨⟨hfirst, -⟩, hvalid⟩, htarget⟩ := hr
  have hK : (('K'.toNat : Nat) : Int) = 75 := rfl
  have hS : (('S'.toNat : Nat) : Int) = 83 := rfl
  constructor
  · rcases hvalid with h | ⟨h, h'⟩
    · exact .inl (by omega)
    · exact .inr ⟨by omega, by omega⟩
  · rcases htarget with h | ⟨h, h' | h'⟩
    · exact .inl (by omega)
    · rw [show (n + r.step).toNat = 75 by omega]
      exact .inr (.inl rfl)
    · rw [show (n + r.step).toNat = 83 by omega]
      exact .inr (.inr rfl)

theorem IsFoldTarget.nextFold {n : Nat} (hn : IsFoldTarget n) : IsFoldTarget (nextFold n) := by
  unfold Unicode.nextFold
  split
  · rename_i r hr
    have hmem := List.all_eq_true.mp foldRuns_leadToTargets r (List.mem_of_find?_eq_some hr)
    have hin := List.find?_some hr
    simp only [Bool.and_eq_true, decide_eq_true_eq] at hin
    exact r.isFoldTarget hmem hin.1.1 hin.1.2
  · exact hn

/-- A letter that folds with its other case only. -/
def IsPlainLetter (l : Char) : Prop :=
  l.isAlpha = true ∧ l.toLower ≠ 'k' ∧ l.toLower ≠ 's'

instance (l : Char) : Decidable (IsPlainLetter l) :=
  inferInstanceAs (Decidable (_ ∧ _))

theorem plain_of_all {w : List Char} (h : w.all (fun l => decide (IsPlainLetter l)) = true) :
    ∀ l ∈ w, IsPlainLetter l :=
  fun l hl => of_decide_eq_true (List.all_eq_true.mp h l hl)

theorem toNat_ofNat_of_isValidChar {n : Nat} (h : n.isValidChar) : (Char.ofNat n).toNat = n := by
  rw [Char.ofNat, dif_pos h]
  rfl

theorem IsPlainLetter.ne_ofNat {l : Char} (hl : IsPlainLetter l) {n : Nat} (hn : IsFoldTarget n) :
    l ≠ Char.ofNat n := by
  rintro rfl
  have hlt := toNat_lt_of_isAlpha hl.1
  rw [toNat_ofNat_of_isValidChar hn.1] at hlt
  rcases hn.2 with h | h | h
  · omega
  · exact hl.2.1 h
  · exact hl.2.2 h

/-! ## ASCII characters -/

theorem toNat_toLower_lt {c : Char} (hc : c.toNat < 128) : c.toLower.toNat < 128 :=
  forall_ascii (P := fun c => c.toLower.toNat < 128) (by decide +kernel) hc

theorem eq_toLower_or_toUpper {c : Char} (hc : c.toNat < 128) :
    c = c.toLower ∨ c = c.toLower.toUpper :=
  forall_ascii (P := fun c => c = c.toLower ∨ c = c.toLower.toUpper) (by decide +kernel) hc

/-- A cycle holds both cases of its character. -/
theorem mem_asciiCycle {c : Char} (hc : c.toNat < 128) :
    c.toLower ∈ asciiCycle c ∧ c.toLower.toUpper ∈ asciiCycle c :=
  forall_ascii (P := fun c => c.toLower ∈ asciiCycle c ∧ c.toLower.toUpper ∈ asciiCycle c)
    (by decide +kernel) hc

/-- Two ASCII characters of one cycle have the same lower case. -/
theorem toLower_of_mem_asciiCycle {c l : Char} (hc : c.toNat < 128) (hl : l ∈ asciiCycle c)
    (hlt : l.toNat < 128) : c.toLower = l.toLower := by
  have h := forall_ascii (P := fun c => (asciiCycle c).all
    (fun l => decide (l.toNat < 128 → c.toLower = l.toLower)) = true) (by decide +kernel) hc
  exact of_decide_eq_true (List.all_eq_true.mp h l hl) hlt

/-- `K` and `S` fold with no plain letter. -/
theorem not_isPlainLetter {c l : Char} (hc : c.toNat < 128) (h : c.toLower = 'k' ∨ c.toLower = 's')
    (hl : l ∈ asciiCycle c) : ¬ IsPlainLetter l := by
  have hall := forall_ascii (P := fun c => c.toLower = 'k' ∨ c.toLower = 's' →
    (asciiCycle c).all (fun l => decide (¬ IsPlainLetter l)) = true) (by decide +kernel) hc
  exact of_decide_eq_true (List.all_eq_true.mp (hall h) l hl)

/-- Among the ASCII characters, those fold together that have the same lower case. -/
theorem sameFold_of_lt {c l : Char} (hc : c.toNat < 128) (hlt : l.toNat < 128) :
    sameFold c l = (c.toLower == l.toLower) := by
  rw [Bool.eq_iff_iff, sameFold, foldCycle, if_pos hc, List.contains_iff_mem, beq_iff_eq]
  constructor
  · exact fun h => toLower_of_mem_asciiCycle hc h hlt
  · intro h
    rcases eq_toLower_or_toUpper hlt with hl | hl
    · rw [hl, ← h]
      exact (mem_asciiCycle hc).1
    · rw [hl, ← h]
      exact (mem_asciiCycle hc).2

theorem toLower_of_le {c : Char} (hc : 128 ≤ c.toNat) : c.toLower = c := by
  have hv : c.toNat = c.val.toNat := rfl
  have hZ : 'Z'.val.toNat = 90 := rfl
  unfold Char.toLower
  rw [dif_neg]
  simp only [UInt32.le_iff_toNat_le]
  omega

/-- What does not tell the cases of ASCII letters apart does not tell those of any character apart. -/
theorem apply_toLower {α : Type} {f : Char → α}
    (h : ∀ n < 128, f (Char.ofNat n).toLower = f (Char.ofNat n)) (c : Char) : f c.toLower = f c := by
  by_cases hc : c.toNat < 128
  · exact forall_ascii (P := fun c => f c.toLower = f c) h hc
  · rw [toLower_of_le (Nat.not_lt.mp hc)]

theorem isAlpha_toLower (c : Char) : c.toLower.isAlpha = c.isAlpha :=
  apply_toLower (by decide +kernel) c

theorem IsPlainLetter.isAlpha_toLower {l : Char} (hl : IsPlainLetter l) :
    l.toLower.isAlpha = true := by
  rw [Unicode.isAlpha_toLower]
  exact hl.1

theorem isWord_of_toLower {c : Char} (h : c.toLower.isAlpha = true) : isWord c = true := by
  rw [isAlpha_toLower] at h
  rw [isWord, if_pos (toNat_lt_of_isAlpha h), Char.isAlphanum, h, Bool.true_or, Bool.true_or]

/-! ## All characters -/

theorem IsPlainLetter.not_mem_asciiCycle {l : Char} (hl : IsPlainLetter l) {n : Nat} (hn : n < 128)
    (ht : IsFoldTarget n) : l ∉ asciiCycle (Char.ofNat n) := by
  intro hmem
  have hlt : (Char.ofNat n).toNat < 128 := by rwa [toNat_ofNat_of_isValidChar ht.1]
  exact not_isPlainLetter hlt (ht.2.resolve_left (by omega)) hmem hl

theorem IsPlainLetter.not_mem_foldCycle {l c : Char} (hl : IsPlainLetter l) (hc : 128 ≤ c.toNat) :
    l ∉ foldCycle c := by
  have hne : l ≠ c := by
    rintro rfl
    have hlt := toNat_lt_of_isAlpha hl.1
    omega
  have hk : IsFoldTarget 'k'.toNat := ⟨.inl (by decide), .inr (.inl rfl)⟩
  have hs : IsFoldTarget 's'.toNat := ⟨.inl (by decide), .inr (.inr rfl)⟩
  have hfirst : IsFoldTarget (if c.toNat == 0x212A then 'k'.toNat
      else if c.toNat == 0x17F then 's'.toNat else nextFold c.toNat) := by
    split
    · exact hk
    · split
      · exact hs
      · exact IsFoldTarget.nextFold ⟨c.valid, .inl hc⟩
  unfold foldCycle
  rw [if_neg (by omega)]
  dsimp only
  generalize (if c.toNat == 0x212A then 'k'.toNat
      else if c.toNat == 0x17F then 's'.toNat else nextFold c.toNat) = n at hfirst
  -- along the cycle every code point is a target of the table
  split
  · simpa using hne
  · split
    · rename_i hn
      exact hl.not_mem_asciiCycle hn hfirst
    · have hn := hl.ne_ofNat hfirst
      split
      · simp [hne, hn]
      · have hn' := hl.ne_ofNat hfirst.nextFold
        have hn'' := hl.ne_ofNat hfirst.nextFold.nextFold
        simp [hne, hn, hn', hn'']

/-- A plain letter folds with the characters that have its lower case. -/
theorem sameFold_eq {c l : Char} (hl : IsPlainLetter l) :
    sameFold c l = (c.toLower == l.toLower) := by
  by_cases hc : c.toNat < 128
  · exact sameFold_of_lt hc (toNat_lt_of_isAlpha hl.1)
  · have hle : 128 ≤ c.toNat := Nat.not_lt.mp hc
    have hne : c ≠ l.toLower := by
      rintro rfl
      have hlt := toNat_toLower_lt (toNat_lt_of_isAlpha hl.1)
      omega
    rw [toLower_of_le hle, beq_false_of_ne hne]
    simpa [sameFold] using hl.not_mem_foldCycle hle

end SchemaLint.Unicode

namespace SchemaLint.Pattern

theorem CharSet.mem_single (c d : Char) : (single c).mem d = (c == d) := by
  rw [Bool.eq_iff_iff, beq_iff_eq]
  simp only [single, mem, Bool.and_eq_true, decide_eq_true_eq]
  exact ⟨fun h => Char.le_antisymm h.1 h.2, fun h => h ▸ ⟨Char.le_refl c, Char.le_refl c⟩⟩

/-- A pattern asks for a plain letter in any case. -/
theorem CharSet.mem_folded_single {c l : Char} (hl : Unicode.IsPlainLetter l) :
    (folded (single l)).mem c = (c.toLower == l.toLower) := by
  rw [← Unicode.sameFold_eq hl, Unicode.sameFold, List.contains_eq_any_beq]
  simp only [mem, mem_single]

end SchemaLint.Pattern
