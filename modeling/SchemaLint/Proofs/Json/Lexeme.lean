import Mathlib.Data.List.Basic
import SchemaLint.Json.Reader
import SchemaLint.Json.Writer

/-!
# Strings and numbers as they are written

A written string is read back as it was, whatever characters it has (`string?_encode`), and so is a
written natural number, provided that what follows does not continue it (`number?_toDigits`).
-/

namespace SchemaLint.Json

open Unicode.CodePoints

/-! ## Strings -/

theorem hexDigit?_hexDigit {n : Nat} (h : n < 16) : hexDigit? (hexDigit n) = some n := by
  revert n
  decide

theorem hex4?_hexDigit {n : Nat} (h : n < 0x20) :
    hex4? '0' '0' (hexDigit (n / 16)) (hexDigit (n % 16)) = some n := by
  have hzero : hexDigit? '0' = some 0 := by decide
  have hhigh := hexDigit?_hexDigit (n := n / 16) (by omega)
  have hlow := hexDigit?_hexDigit (n := n % 16) (by omega)
  unfold hex4?
  simp only [hzero, hhigh, hlow, Option.bind_eq_bind, Option.bind_some, Option.pure_def,
    Option.some.injEq]
  omega

theorem codePoints?_escaped {d e : Char} (hd : d ≠ 'u') (he : escaped? d = some e) (s : List Char) :
    codePoints? ('\\' :: d :: s) = (codePoints? s).map fun (ns, r) => (e.toNat :: ns, r) := by
  rw [codePoints?]
  · simp only [he, Option.bind_eq_bind, Option.bind_some]
    cases codePoints? s <;> rfl
  · rintro a b c d s rfl
    exact absurd rfl hd

theorem codePoints?_hexEscaped {n : Nat} (h : n < 0x20) (s : List Char) :
    codePoints? ('\\' :: 'u' :: '0' :: '0' :: hexDigit (n / 16) :: hexDigit (n % 16) :: s) =
      (codePoints? s).map fun (ns, r) => (n :: ns, r) := by
  rw [codePoints?]
  simp only [hex4?_hexDigit h, Option.bind_eq_bind, Option.bind_some]
  cases codePoints? s <;> rfl

theorem codePoints?_plain {c : Char} (hquote : c ≠ '"') (hback : c ≠ '\\') (hlow : ¬ c.toNat < 0x20)
    (s : List Char) :
    codePoints? (c :: s) = (codePoints? s).map fun (ns, r) => (c.toNat :: ns, r) := by
  rw [codePoints?]
  · rw [if_neg hlow]
    cases codePoints? s <;> rfl
  · exact hquote
  · rintro a b d e s rfl
    exact absurd rfl hback
  · rintro d s rfl
    exact absurd rfl hback

/-- A character is read back from what is written for it. -/
theorem codePoints?_encodeChar (c : Char) (s : List Char) :
    codePoints? (encodeChar c ++ s) = (codePoints? s).map fun (ns, r) => (c.toNat :: ns, r) := by
  unfold encodeChar
  split
  · next h => rw [beq_iff_eq.mp h]; exact codePoints?_escaped (d := '"') (by decide) rfl s
  split
  · next h => rw [beq_iff_eq.mp h]; exact codePoints?_escaped (d := '\\') (by decide) rfl s
  split
  · next h => rw [beq_iff_eq.mp h]; exact codePoints?_escaped (d := 'n') (by decide) rfl s
  split
  · next h => rw [beq_iff_eq.mp h]; exact codePoints?_escaped (d := 'r') (by decide) rfl s
  split
  · next h => rw [beq_iff_eq.mp h]; exact codePoints?_escaped (d := 't') (by decide) rfl s
  split
  · next h => rw [beq_iff_eq.mp h]; exact codePoints?_escaped (d := 'b') (by decide) rfl s
  split
  · next h => rw [beq_iff_eq.mp h]; exact codePoints?_escaped (d := 'f') (by decide) rfl s
  split
  · next h => exact codePoints?_hexEscaped h s
  · next hquote hback _ _ _ _ _ hlow =>
    rw [beq_iff_eq] at hquote hback
    exact codePoints?_plain hquote hback hlow s

theorem characters?_map_toNat (s : List Char) : characters? (s.map Char.toNat) = some s := by
  induction s with
  | nil => rfl
  | cons c s ih =>
    have hvalid : c.toNat.isValidChar := c.valid
    rw [List.map_cons]
    unfold characters?
    rw [if_pos hvalid, ih, Option.map_some, Char.ofNat_toNat]

theorem codePoints?_encode (s r : List Char) :
    codePoints? (s.flatMap encodeChar ++ '"' :: r) = some (s.map Char.toNat, r) := by
  induction s with
  | nil => rw [List.flatMap_nil, List.nil_append, codePoints?, List.map_nil]
  | cons c s ih =>
    rw [List.flatMap_cons, List.append_assoc, codePoints?_encodeChar, ih]
    rfl

/-- A written string is read back as it was. -/
theorem string?_encode (s : String) (r : List Char) :
    string? (s.toList.flatMap encodeChar ++ '"' :: r) = some (some s, r) := by
  rw [string?, codePoints?_encode]
  simp only [Option.map_some, characters?_map_toNat, String.ofList_toList]

/-! ## Numbers -/

/-- What follows a number does not continue it. -/
def EndsNumber (s : List Char) : Prop :=
  ∀ c ∈ s.head?, c.isDigit = false ∧ c ≠ '.' ∧ c ≠ 'e' ∧ c ≠ 'E'

theorem digits_append {ds : List Char} (hds : ∀ c ∈ ds, c.isDigit = true) {r : List Char}
    (hr : EndsNumber r) (n : Nat) :
    digits n (ds ++ r) = (ds.foldl (fun n c => n * 10 + (c.toNat - '0'.toNat)) n, r) := by
  have htake : r.takeWhile Char.isDigit = [] := by
    cases r with
    | nil => rfl
    | cons c r => rw [List.takeWhile_cons_of_neg (by simp [(hr c rfl).1])]
  have hdrop : r.dropWhile Char.isDigit = r := by
    cases r with
    | nil => rfl
    | cons c r => rw [List.dropWhile_cons_of_neg (by simp [(hr c rfl).1])]
  unfold digits
  rw [List.takeWhile_append_of_pos hds, List.dropWhile_append_of_pos hds, htake, hdrop,
    List.append_nil]

theorem foldl_toDigits (n : Nat) :
    (Nat.toDigits 10 n).foldl (fun n c => n * 10 + (c.toNat - '0'.toNat)) 0 = n := by
  have h := Nat.ofDigitChars_ten_toDigits (n := n)
  rw [Nat.ofDigitChars_eq_foldl] at h
  simpa only [Nat.mul_comm 10] using h

theorem isDigit_toDigits (n : Nat) : ∀ c ∈ Nat.toDigits 10 n, c.isDigit = true := fun _ hc =>
  Nat.isDigit_of_mem_toDigits (by decide) (by decide) hc

/-- A positive number is written without a leading zero. -/
theorem head?_toDigits {n : Nat} (h : 0 < n) : (Nat.toDigits 10 n).head? ≠ some '0' := by
  induction n using Nat.strongRecOn with
  | ind n ih =>
    by_cases hlt : n < 10
    · rw [Nat.toDigits_of_lt_base hlt]
      have hdigit : ∀ k < 10, 0 < k → [Nat.digitChar k].head? ≠ some '0' := by decide
      exact hdigit n hlt h
    · have hne : Nat.toDigits 10 (n / 10) ≠ [] := Nat.toDigits_ne_nil
      rw [Nat.toDigits_of_base_le (by decide) (by omega), List.head?_append_of_ne_nil _ hne]
      exact ih (n / 10) (by omega) (by omega)

theorem wholePart?_toDigits (n : Nat) {r : List Char} (hr : EndsNumber r) :
    wholePart? (Nat.toDigits 10 n ++ r) = some (n, r) := by
  by_cases hzero : n = 0
  · subst hzero
    have hend : startsDigit r = false := by
      cases r with
      | nil => rfl
      | cons c r => exact (hr c rfl).1
    rw [Nat.toDigits_zero, List.singleton_append, wholePart?, hend]
    rfl
  · obtain ⟨d, ds, hds⟩ := List.exists_cons_of_ne_nil (Nat.toDigits_ne_nil (b := 10) (n := n))
    have hd : d.isDigit = true := isDigit_toDigits n d (by rw [hds]; exact List.mem_cons_self)
    have hd0 : d ≠ '0' := by
      rintro rfl
      exact head?_toDigits (Nat.pos_of_ne_zero hzero) (by rw [hds, List.head?_cons])
    have hread := digits_append (isDigit_toDigits n) hr 0
    rw [foldl_toDigits] at hread
    have hstart : startsDigit (Nat.toDigits 10 n ++ r) = true := by
      rw [hds, List.cons_append, startsDigit, List.head?_cons]
      exact hd
    unfold wholePart?
    split
    · next heq =>
      rw [hds, List.cons_append] at heq
      exact absurd (List.cons.inj heq).1 hd0
    · rw [if_pos hstart, hread]

/-- A written natural number is read back as it was. -/
theorem number?_toDigits (n : Nat) {r : List Char} (hr : EndsNumber r) :
    number? (Nat.toDigits 10 n ++ r) =
      some ({ negative := false, digits := n, exponent := 0, isInteger := true }, r) := by
  have hwhole := wholePart?_toDigits n hr
  obtain ⟨d, ds, hds⟩ := List.exists_cons_of_ne_nil (Nat.toDigits_ne_nil (b := 10) (n := n))
  have hd : d.isDigit = true := isDigit_toDigits n d (by rw [hds]; exact List.mem_cons_self)
  have hsign : d ≠ '-' := by
    rintro rfl
    exact absurd hd (by decide)
  rw [hds, List.cons_append] at hwhole ⊢
  unfold number?
  split
  next negative t heq =>
  have hnosign : negative = false ∧ t = d :: (ds ++ r) := by
    split at heq
    · next hcons => exact absurd (List.cons.inj hcons).1 hsign
    · cases heq
      exact ⟨rfl, rfl⟩
  obtain ⟨rfl, rfl⟩ := hnosign
  simp only [hwhole, Option.bind_eq_bind, Option.bind_some]
  cases r with
  | nil => rfl
  | cons c r =>
    obtain ⟨-, hpoint, he, hE⟩ := hr c rfl
    have hletter : (c == 'e' || c == 'E') = false := by
      rw [beq_eq_false_iff_ne.mpr he, beq_eq_false_iff_ne.mpr hE, Bool.or_false]
    split
    · next hcons => exact absurd (List.cons.inj hcons).1 hpoint
    · simp only [hletter]
      rfl

end SchemaLint.Json
