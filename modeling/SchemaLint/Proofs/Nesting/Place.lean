import SchemaLint.Keyword
import SchemaLint.Proofs.Nesting.Cut

/-!
# Places of a text

A place of a text is a way to write it as two parts, and it passes a test (`Passes`) when it stands
outside quotes and brackets and the test says so. Cutting a text speaks about its places: the first
cut is the first place that passes (`firstCut?_eq_some_iff`), and the texts from the later cuts on
are those behind the places that pass (`mem_partSuffixes_parts`), whose byte offsets come in ascending
order (`mem_offsets_iff`, `pairwise_offsets`). A text put behind another keeps the first place of that
one when the test cannot tell the difference (`firstCut?_append`).
-/

namespace SchemaLint

open Nesting

namespace Nesting

/-- The place between two parts of a text passes, for a reader who starts in front of the first part
behind some character. -/
def Passes (n : Nesting) (before : Option Char) (test : PlaceTest) (a b : List Char) : Prop :=
  ∃ c t, b = c :: t ∧ ((n.after a).mark c).isTop = true ∧ test (a.getLast?.or before) b = true

/-- No place inside of the first of two parts of a text passes. -/
def Clear (n : Nesting) (before : Option Char) (test : PlaceTest) (x y : List Char) : Prop :=
  ∀ a b, x = a ++ b → b ≠ [] → ¬ n.Passes before test a (b ++ y)

section Reader

variable {n : Nesting} {before : Option Char} {test : PlaceTest} {c : Char} {a b s t x y : List Char}

theorem not_passes_nil : ¬ n.Passes before test a [] := by
  rintro ⟨c, t, h, -⟩
  cases h

theorem passes_here :
    n.Passes before test [] (c :: t) ↔ (n.mark c).isTop = true ∧ test before (c :: t) = true := by
  constructor
  · rintro ⟨d, u, h, htop, htest⟩
    obtain ⟨rfl, rfl⟩ := List.cons.inj h
    exact ⟨htop, htest⟩
  · rintro ⟨htop, htest⟩
    exact ⟨c, t, rfl, htop, htest⟩

theorem passes_cons : n.Passes before test (c :: a) b ↔ (n.next c).Passes (some c) test a b := by
  unfold Passes
  rw [Text.getLast?_cons_or, after_cons]

theorem clear_nil : n.Clear before test [] y := by
  intro a b h hb
  exact absurd (List.append_eq_nil_iff.mp h.symm).2 hb

theorem clear_cons : n.Clear before test (c :: x) y ↔
    ¬ n.Passes before test [] (c :: (x ++ y)) ∧ (n.next c).Clear (some c) test x y := by
  constructor
  · intro h
    refine ⟨h [] (c :: x) rfl (List.cons_ne_nil c x), fun a b hx hb hpass => ?_⟩
    exact h (c :: a) b (by rw [hx, List.cons_append]) hb (passes_cons.mpr hpass)
  · rintro ⟨hhere, hlater⟩ a b hx hb
    cases a with
    | nil =>
      obtain rfl : c :: x = b := hx
      exact hhere
    | cons d a =>
      obtain ⟨rfl, rfl⟩ := List.cons.inj hx
      rw [passes_cons]
      exact hlater a b rfl hb

theorem clear_append_left {z : List Char} : n.Clear before test (x ++ z) y ↔
    n.Clear before test x (z ++ y) ∧ (n.after x).Clear (x.getLast?.or before) test z y := by
  induction x generalizing n before with
  | nil => simp [clear_nil]
  | cons c x ih =>
    rw [List.cons_append, clear_cons, clear_cons, ih, Text.getLast?_cons_or, after_cons,
      List.append_assoc, and_assoc]

theorem clear_of_needs {p : Char → Bool} (htest : test.Needs p) (hx : ∀ c ∈ x, p c = false) :
    n.Clear before test x y := by
  rintro a b rfl hb ⟨c, t, h, -, hpass⟩
  cases b with
  | nil => contradiction
  | cons d b =>
    have hd := hx d (by simp)
    rw [htest _ _ _ hpass] at hd
    cases hd

theorem exists_first (n : Nesting) (before : Option Char) (test : PlaceTest) (s : List Char) :
    n.Clear before test s [] ∨
      ∃ x y, s = x ++ y ∧ n.Passes before test x y ∧ n.Clear before test x y := by
  induction s generalizing n before with
  | nil => exact .inl clear_nil
  | cons c s ih =>
    by_cases hhere : n.Passes before test [] (c :: s)
    · exact .inr ⟨[], c :: s, rfl, hhere, clear_nil⟩
    · rcases ih (n.next c) (some c) with hclear | ⟨x, y, rfl, hpass, hclear⟩
      · exact .inl (clear_cons.mpr ⟨by rwa [List.append_nil], hclear⟩)
      · exact .inr ⟨c :: x, y, rfl, passes_cons.mpr hpass, clear_cons.mpr ⟨hhere, hclear⟩⟩

theorem parts_append_of_clear (h : n.Clear before test x y) :
    n.parts test before (x ++ y) =
      x.foldr Text.consHead ((n.after x).parts test (x.getLast?.or before) y) := by
  apply parts_append
  rintro a c b rfl htop
  cases htest : test (a.getLast?.or before) (c :: (b ++ y)) with
  | false => rfl
  | true => exact absurd ⟨c, b ++ y, rfl, htop, htest⟩ (h a (c :: b) rfl (List.cons_ne_nil c b))

/-- The texts behind the places that pass are what is left at the beginning of the later parts. -/
theorem mem_partSuffixes_parts :
    y ∈ partSuffixes (n.parts test before s) ↔ ∃ x, s = x ++ y ∧ n.Passes before test x y := by
  induction s generalizing n before with
  | nil =>
    refine iff_of_false (by simp [parts, partSuffixes]) ?_
    rintro ⟨x, hx, hpass⟩
    rw [(List.append_eq_nil_iff.mp hx.symm).2] at hpass
    exact not_passes_nil hpass
  | cons c s ih =>
    have ih := @ih (n.next c) (some c)
    have hflat : (parts test (n.next c) (some c) s).flatten = s := flatten_parts_from test _ _ s
    obtain ⟨p, ps, hp⟩ := List.exists_cons_of_ne_nil (parts_ne_nil_from test (n.next c) (some c) s)
    rw [hp] at ih hflat
    -- A first character in front of the first part does not show in what is left at later parts.
    have hlater : y ∈ partSuffixes (Text.consHead c (p :: ps)) ↔
        ∃ x, s = x ++ y ∧ n.Passes before test (c :: x) y := by
      simp only [passes_cons]
      exact ih
    have hshift : (∃ x, c :: s = x ++ y ∧ n.Passes before test x y) ↔
        (y = c :: s ∧ n.Passes before test [] (c :: s)) ∨
          ∃ x, s = x ++ y ∧ n.Passes before test (c :: x) y := by
      constructor
      · rintro ⟨x, hx, hpass⟩
        cases x with
        | nil =>
          obtain rfl : c :: s = y := hx
          exact .inl ⟨rfl, hpass⟩
        | cons d x =>
          obtain ⟨rfl, rfl⟩ := List.cons.inj hx
          exact .inr ⟨x, rfl, hpass⟩
      · rintro (⟨rfl, hpass⟩ | ⟨x, rfl, hpass⟩)
        · exact ⟨[], rfl, hpass⟩
        · exact ⟨c :: x, rfl, hpass⟩
    rw [hshift, ← hlater, passes_here, Nesting.parts, hp]
    split
    · next hhere =>
      rw [Bool.and_eq_true] at hhere
      have hhead : partSuffixes ([] :: Text.consHead c (p :: ps)) =
          (c :: s) :: partSuffixes (Text.consHead c (p :: ps)) := by
        simp [partSuffixes, Text.consHead, ← hflat]
      rw [hhead, List.mem_cons, and_iff_left hhere]
    · next hhere =>
      rw [Bool.and_eq_true] at hhere
      rw [or_iff_right fun h => hhere h.2]

end Reader

end Nesting

/-! ## The first place -/

section FirstCut

variable {test : PlaceTest} {s t x y : List Char}

theorem firstCut?_of_clear (h : start.Clear none test s []) : firstCut? test s = none := by
  have hparts := parts_append_of_clear h
  rw [List.append_nil, Nesting.parts, foldr_consHead, List.append_nil] at hparts
  rw [firstCut?, SchemaLint.parts, hparts]

theorem firstCut?_of_passes (hpass : start.Passes none test x y) (hclear : start.Clear none test x y) :
    firstCut? test (x ++ y) = some (x, y) := by
  obtain ⟨c, t, rfl, htop, htest⟩ := hpass
  have hhere : (((start.after x).mark c).isTop && test (x.getLast?.or none) (c :: t)) = true := by
    rw [htop, htest, Bool.and_self]
  have hflat : (Nesting.parts test ((start.after x).next c) (some c) t).flatten = t :=
    flatten_parts_from test _ _ t
  obtain ⟨p, ps, hp⟩ := List.exists_cons_of_ne_nil
    (parts_ne_nil_from test ((start.after x).next c) (some c) t)
  rw [hp] at hflat
  rw [firstCut?, SchemaLint.parts, parts_append_of_clear hclear, Nesting.parts, if_pos hhere, hp,
    foldr_consHead, Text.consHead]
  simp [← hflat]

theorem firstCut?_eq_none_iff : firstCut? test s = none ↔ start.Clear none test s [] := by
  constructor
  · intro h
    rcases exists_first start none test s with hclear | ⟨x, y, rfl, hpass, hclear⟩
    · exact hclear
    · rw [firstCut?_of_passes hpass hclear] at h
      cases h
  · exact firstCut?_of_clear

/-- The first cut of a text is at the first place that passes. -/
theorem firstCut?_eq_some_iff : firstCut? test s = some (x, y) ↔
    s = x ++ y ∧ start.Passes none test x y ∧ start.Clear none test x y := by
  constructor
  · intro h
    rcases exists_first start none test s with hclear | ⟨x', y', rfl, hpass, hclear⟩
    · rw [firstCut?_of_clear hclear] at h
      cases h
    · rw [firstCut?_of_passes hpass hclear] at h
      obtain ⟨rfl, rfl⟩ := Prod.mk.inj (Option.some.inj h)
      exact ⟨rfl, hpass, hclear⟩
  · rintro ⟨rfl, hpass, hclear⟩
    exact firstCut?_of_passes hpass hclear

theorem isSome_firstCut?_iff :
    (firstCut? test s).isSome = true ↔ ∃ a b, s = a ++ b ∧ start.Passes none test a b := by
  constructor
  · intro h
    obtain ⟨⟨x, y⟩, hcut⟩ := Option.isSome_iff_exists.mp h
    obtain ⟨hs, hpass, -⟩ := firstCut?_eq_some_iff.mp hcut
    exact ⟨x, y, hs, hpass⟩
  · rintro ⟨a, b, rfl, hpass⟩
    rw [Option.isSome_iff_ne_none, Ne, firstCut?_eq_none_iff]
    intro hclear
    have hb : b ≠ [] := by
      rintro rfl
      exact not_passes_nil hpass
    exact hclear a b rfl hb (by rwa [List.append_nil])

/-! ## A text behind another -/

variable (htest : ∀ before c r, test before (c :: (r ++ t)) = test before (c :: r))

include htest

theorem passes_append {a b : List Char} (hb : b ≠ []) :
    start.Passes none test a (b ++ t) ↔ start.Passes none test a b := by
  obtain ⟨c, b, rfl⟩ := List.exists_cons_of_ne_nil hb
  constructor
  · rintro ⟨d, u, hu, htop, hpass⟩
    obtain ⟨rfl, -⟩ := List.cons.inj hu
    rw [List.cons_append, htest] at hpass
    exact ⟨c, b, rfl, htop, hpass⟩
  · rintro ⟨d, u, hu, htop, hpass⟩
    obtain ⟨rfl, rfl⟩ := List.cons.inj hu
    refine ⟨c, b ++ t, rfl, htop, ?_⟩
    rwa [List.cons_append, htest]

theorem clear_append : start.Clear none test x (y ++ t) ↔ start.Clear none test x y := by
  unfold Clear
  refine forall₂_congr fun a b => forall₂_congr fun _ hb => ?_
  rw [← List.append_assoc, passes_append htest (by simp [hb])]

/-- The first cut of a text stays where it is when another text follows. -/
theorem firstCut?_append (h : firstCut? test s = some (x, y)) :
    firstCut? test (s ++ t) = some (x, y ++ t) := by
  obtain ⟨rfl, hpass, hclear⟩ := firstCut?_eq_some_iff.mp h
  have hy : y ≠ [] := by
    rintro rfl
    exact not_passes_nil hpass
  rw [List.append_assoc]
  exact firstCut?_of_passes ((passes_append htest hy).mpr hpass) ((clear_append htest).mpr hclear)

/-- Behind a text without a cut the first place may be that of the text which follows. -/
theorem clear_of_firstCut? (h : firstCut? test s = none) : start.Clear none test s t := by
  have hclear := firstCut?_eq_none_iff.mp h
  rw [← clear_append htest] at hclear
  exact hclear

end FirstCut

/-! ## Keywords -/

/-- A keyword stands at a place of a text. -/
def Stands (w : String) (a b : List Char) : Prop :=
  start.Passes none (isKeywordAt w) a b

theorem hasKeyword_iff {w : String} {s : List Char} :
    hasKeyword w s = true ↔ ∃ a b, s = a ++ b ∧ Stands w a b :=
  isSome_firstCut?_iff

/-! ## Offsets -/

section Offsets

open Text

variable {n : Nesting} {before : Option Char} {test : PlaceTest} {c : Char} {s : List Char}
  {offset k : Nat}

theorem partOffsets_consHead (c : Char) (p : List Char) (ps : List (List Char)) :
    partOffsets offset (consHead c (p :: ps)) = partOffsets (offset + c.utf8Size) (p :: ps) := by
  cases ps with
  | nil => rfl
  | cons q qs => simp only [consHead, partOffsets, utf8Length, Nat.add_assoc]

/-- A first character gives its own offset if its place passes, and moves the later places. -/
theorem partOffsets_parts_cons :
    partOffsets offset (n.parts test before (c :: s)) =
      (if (n.mark c).isTop && test before (c :: s) then [offset] else []) ++
        partOffsets (offset + c.utf8Size) ((n.next c).parts test (some c) s) := by
  obtain ⟨p, ps, hp⟩ := List.exists_cons_of_ne_nil (parts_ne_nil_from test (n.next c) (some c) s)
  rw [Nesting.parts, hp, ← partOffsets_consHead]
  split <;> rfl

theorem le_of_mem_partOffsets (h : k ∈ partOffsets offset (n.parts test before s)) : offset ≤ k := by
  induction s generalizing n before offset with
  | nil => cases h
  | cons c s ih =>
    rw [partOffsets_parts_cons, List.mem_append] at h
    rcases h with h | h
    · split at h
      · exact Nat.le_of_eq (List.mem_singleton.mp h).symm
      · cases h
    · exact Nat.le_of_add_right_le (ih h)

theorem pairwise_partOffsets :
    (partOffsets offset (n.parts test before s)).Pairwise (· < ·) := by
  induction s generalizing n before offset with
  | nil => exact List.Pairwise.nil
  | cons c s ih =>
    have hlater : ∀ k ∈ partOffsets (offset + c.utf8Size) ((n.next c).parts test (some c) s),
        offset < k := fun k hk =>
      Nat.lt_of_lt_of_le (Nat.lt_add_of_pos_right c.utf8Size_pos) (le_of_mem_partOffsets hk)
    rw [partOffsets_parts_cons]
    split
    · exact List.pairwise_cons.mpr ⟨hlater, ih⟩
    · exact ih

theorem mem_partOffsets_iff : k ∈ partOffsets offset (n.parts test before s) ↔
    ∃ x y, s = x ++ y ∧ n.Passes before test x y ∧ k = offset + utf8Length x := by
  induction s generalizing n before offset with
  | nil =>
    refine iff_of_false List.not_mem_nil ?_
    rintro ⟨x, y, hx, hpass, -⟩
    rw [(List.append_eq_nil_iff.mp hx.symm).2] at hpass
    exact not_passes_nil hpass
  | cons c s ih =>
    have hhere : k ∈ (if (n.mark c).isTop && test before (c :: s) then [offset] else []) ↔
        n.Passes before test [] (c :: s) ∧ k = offset := by
      rw [passes_here, ← Bool.and_eq_true]
      split
      · next h => rw [List.mem_singleton, and_iff_right h]
      · next h => exact iff_of_false List.not_mem_nil fun h' => h h'.1
    rw [partOffsets_parts_cons, List.mem_append, hhere, ih]
    constructor
    · rintro (⟨hpass, rfl⟩ | ⟨x, y, rfl, hpass, rfl⟩)
      · exact ⟨[], c :: s, rfl, hpass, rfl⟩
      · exact ⟨c :: x, y, rfl, passes_cons.mpr hpass, Nat.add_assoc ..⟩
    · rintro ⟨x, y, hx, hpass, rfl⟩
      cases x with
      | nil =>
        obtain rfl : c :: s = y := hx
        exact .inl ⟨hpass, rfl⟩
      | cons d x =>
        obtain ⟨rfl, rfl⟩ := List.cons.inj hx
        exact .inr ⟨x, y, rfl, passes_cons.mp hpass, (Nat.add_assoc ..).symm⟩

theorem pairwise_offsets : (offsets test s).Pairwise (· < ·) :=
  pairwise_partOffsets

theorem mem_offsets_iff :
    k ∈ offsets test s ↔ ∃ x y, s = x ++ y ∧ start.Passes none test x y ∧ k = utf8Length x := by
  rw [offsets, SchemaLint.parts, mem_partOffsets_iff]
  simp only [Nat.zero_add]

end Offsets

end SchemaLint
