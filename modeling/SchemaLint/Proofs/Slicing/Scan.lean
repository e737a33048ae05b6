import Mathlib.Data.Nat.PSub
import SchemaLint.Identifier
import SchemaLint.Proofs.Balance.Partner
import SchemaLint.Proofs.Nesting.Place
import SchemaLint.Proofs.Text.Slice
import SchemaLint.Statement

/-!
# Reading a text by byte offsets

A text may be scanned once, each character noted with its byte offset and its mark, and then be read by
slices between offsets that the scan or arithmetic on them gives. An answer is then `none` as soon as a
slice is none, a byte is looked at that is not there, or one is subtracted from zero.

The readers here and in the modules above this one are such readers. That none of them fails, and that
each gives what the reader of the same name gives, follows from the places that the scan goes through:
a test on scanned characters that asks what a test on places asks (`Asks`) finds the offsets of the
places that pass (`filterM_scan`, `findM?_scan`).
-/

namespace SchemaLint

open Nesting Text

namespace Slicing

/-- A character of a text with its mark and its byte offset. -/
structure Scanned extends Mark where
  offset : Nat
  deriving DecidableEq, Repr

end Slicing

/-- The characters of a text, for a reader who stands at a byte offset. -/
def Nesting.scan (n : Nesting) (offset : Nat) : List Char → List Slicing.Scanned
  | [] => []
  | c :: s => ⟨n.mark c, offset⟩ :: (n.next c).scan (offset + c.utf8Size) s

namespace Slicing

/-- The characters of a text. -/
def scan (s : List Char) : List Scanned :=
  start.scan 0 s

/-! ## Steps that do not fail -/

section Steps

variable {α β : Type} {l : List α}

theorem mapM_eq_some {f : α → Option β} {g : α → β} (h : ∀ a ∈ l, f a = some (g a)) :
    l.mapM f = some (l.map g) := by
  induction l with
  | nil => rfl
  | cons a l ih =>
    rw [List.mapM_cons, h a List.mem_cons_self, ih fun b hb => h b (List.mem_cons_of_mem a hb)]
    rfl

theorem filterMapM_map_eq_some {γ : Type} {k : α → β} {f : β → Option (Option γ)} {g : α → Option γ}
    (h : ∀ a ∈ l, f (k a) = some (g a)) : (l.map k).filterMapM f = some (l.filterMap g) := by
  induction l with
  | nil => rfl
  | cons a l ih =>
    rw [List.map_cons, List.filterMapM_cons, h a List.mem_cons_self,
      ih fun b hb => h b (List.mem_cons_of_mem a hb), List.filterMap_cons]
    cases g a <;> rfl

theorem filterMapM_eq_some {f : α → Option (Option β)} {g : α → Option β}
    (h : ∀ a ∈ l, f a = some (g a)) : l.filterMapM f = some (l.filterMap g) := by
  have hmap := filterMapM_map_eq_some (k := id) h
  rwa [List.map_id] at hmap

theorem filterM_eq_some {f : α → Option Bool} {g : α → Bool} (h : ∀ a ∈ l, f a = some (g a)) :
    l.filterM f = some (l.filter g) := by
  suffices ∀ acc, List.filterAuxM f l acc = some ((l.filter g).reverse ++ acc) by
    rw [List.filterM, this]
    simp
  induction l with
  | nil => exact fun acc => rfl
  | cons a l ih =>
    intro acc
    rw [List.filterAuxM, h a List.mem_cons_self, List.filter_cons]
    have htail := ih fun b hb => h b (List.mem_cons_of_mem a hb)
    cases g a with
    | true => simpa using htail (a :: acc)
    | false => exact htail acc

theorem findM?_eq_some {f : α → Option Bool} {g : α → Bool} (h : ∀ a ∈ l, f a = some (g a)) :
    l.findM? f = some (l.find? g) := by
  induction l with
  | nil => rfl
  | cons a l ih =>
    have htail := ih fun b hb => h b (List.mem_cons_of_mem a hb)
    rw [List.findM?, h a List.mem_cons_self, List.find?_cons]
    cases g a with
    | true => rfl
    | false => exact htail

theorem allM_eq_some {f : α → Option Bool} {g : α → Bool} (h : ∀ a ∈ l, f a = some (g a)) :
    l.allM f = some (l.all g) := by
  induction l with
  | nil => rfl
  | cons a l ih =>
    have htail := ih fun b hb => h b (List.mem_cons_of_mem a hb)
    rw [List.allM, h a List.mem_cons_self, List.all_cons]
    cases g a with
    | true => exact htail
    | false => rfl

end Steps

/-! ## Places and their offsets -/

section Places

variable {test : PlaceTest} {p : Scanned → Option Bool} {n : Nesting} {offset : Nat}
  {s x y : List Char}

theorem scan_append : n.scan offset (x ++ y) =
    n.scan offset x ++ (n.after x).scan (offset + utf8Length x) y := by
  induction x generalizing n offset with
  | nil => rfl
  | cons c x ih =>
    rw [List.cons_append, Nesting.scan, Nesting.scan, ih, after_cons, utf8Length, Nat.add_assoc]
    rfl

theorem exists_of_mem_scan {a : Scanned} (h : a ∈ n.scan offset s) :
    ∃ x c t, s = x ++ c :: t ∧ a = ⟨(n.after x).mark c, offset + utf8Length x⟩ := by
  induction s generalizing n offset with
  | nil => cases h
  | cons c s ih =>
    rcases List.mem_cons.mp h with rfl | h
    · exact ⟨[], c, s, rfl, rfl⟩
    · obtain ⟨x, d, t, rfl, rfl⟩ := ih h
      exact ⟨c :: x, d, t, rfl, by rw [after_cons, utf8Length, Nat.add_assoc]⟩

/-- A test on the characters of a text that asks of them what another asks of their places, and that
only of places outside quotes and brackets. -/
def Asks (s : List Char) (p : Scanned → Option Bool) (test : PlaceTest) : Prop :=
  ∀ x c t, s = x ++ c :: t → p ⟨(start.after x).mark c, utf8Length x⟩ =
    some (((start.after x).mark c).isTop && test x.getLast? (c :: t))

theorem Asks.eq_some (h : Asks s p test) : ∀ a ∈ scan s, p a = some ((p a).getD false) := by
  intro a ha
  obtain ⟨x, c, t, hs, rfl⟩ := exists_of_mem_scan ha
  rw [Nat.zero_add, h x c t hs]
  rfl

theorem map_filter_scan (h : Asks s p test) (hs : s = x ++ y) :
    (((start.after x).scan (utf8Length x) y).filter fun a => (p a).getD false).map (·.offset) =
      partOffsets (utf8Length x) ((start.after x).parts test x.getLast? y) := by
  induction y generalizing x with
  | nil => rfl
  | cons c y ih =>
    have hnext : (start.after x).next c = start.after (x ++ [c]) := by rw [after_append]; rfl
    have hlength : utf8Length x + c.utf8Size = utf8Length (x ++ [c]) := by
      rw [utf8Length_append]; rfl
    have hlast : some c = (x ++ [c]).getLast? := by simp
    have hrest := ih (x := x ++ [c]) (by rw [hs, List.append_assoc]; rfl)
    rw [Nesting.scan, List.filter_cons, partOffsets_parts_cons, h x c y hs, hnext, hlength, hlast]
    dsimp only [Option.getD_some]
    split
    · rw [List.map_cons, hrest]
      rfl
    · rw [hrest]
      rfl

theorem head?_offsets (test : PlaceTest) (s : List Char) :
    (offsets test s).head? = (firstCut? test s).map fun (x, _) => utf8Length x := by
  rw [offsets, firstCut?]
  rcases SchemaLint.parts test s with _ | ⟨p, _ | ⟨q, ps⟩⟩
  · rfl
  · rfl
  · exact congrArg some (Nat.zero_add (utf8Length p))

theorem partOffsets_cons (offset : Nat) (p q : List Char) (qs : List (List Char)) :
    partOffsets offset (p :: q :: qs) =
      (offset + utf8Length p) :: partOffsets (offset + utf8Length p) (q :: qs) :=
  rfl

theorem partOffsets_append (offset : Nat) (x p : List Char) (ps : List (List Char)) :
    partOffsets (offset + utf8Length x) (p :: ps) = partOffsets offset ((x ++ p) :: ps) := by
  cases ps with
  | nil => rfl
  | cons q qs => rw [partOffsets_cons, partOffsets_cons, utf8Length_append, Nat.add_assoc]

/-- The first part of a text ends at the first offset, or else with the text. -/
theorem head?_partOffsets (p : List Char) (ps : List (List Char)) :
    (partOffsets 0 (p :: ps)).head?.getD (utf8Length (p ++ ps.flatten)) = utf8Length p := by
  cases ps with
  | nil => simp [partOffsets]
  | cons q qs => exact Nat.zero_add (utf8Length p)

theorem partOffsets_eq_map (offset : Nat) (p : List Char) (ps : List (List Char)) :
    partOffsets offset (p :: ps) = (partSuffixes (p :: ps)).map fun y =>
      offset + utf8Length (p :: ps).flatten - utf8Length y := by
  induction ps generalizing offset p with
  | nil => rfl
  | cons q qs ih =>
    have hhead : offset + utf8Length (p :: q :: qs).flatten - utf8Length (q :: qs).flatten =
        offset + utf8Length p := by
      rw [List.flatten_cons, utf8Length_append]
      omega
    have htotal : offset + utf8Length (p :: q :: qs).flatten =
        offset + utf8Length p + utf8Length (q :: qs).flatten := by
      rw [List.flatten_cons, utf8Length_append, Nat.add_assoc]
    have hsuffixes : partSuffixes (p :: q :: qs) = (q :: qs).flatten :: partSuffixes (q :: qs) := rfl
    rw [partOffsets_cons, hsuffixes, List.map_cons, hhead, ih, htotal]

/-- What is left at the later parts of a text begins at their offsets. -/
theorem filterMapM_offsets {β : Type} {test : PlaceTest} {s : List Char} {f : Nat → Option (Option β)}
    {g : List Char → Option β}
    (h : ∀ x y, s = x ++ y → start.Passes none test x y → f (utf8Length x) = some (g y)) :
    (offsets test s).filterMapM f = some ((partSuffixes (parts test s)).filterMap g) := by
  obtain ⟨p, ps, hparts⟩ := List.exists_cons_of_ne_nil (parts_ne_nil test s)
  have hoffsets : offsets test s = (partSuffixes (parts test s)).map fun y =>
      utf8Length s - utf8Length y := by
    rw [offsets, hparts, partOffsets_eq_map, ← hparts, flatten_parts, Nat.zero_add]
  rw [hoffsets]
  refine filterMapM_map_eq_some fun y hy => ?_
  obtain ⟨x, hs, hpass⟩ := mem_partSuffixes_parts.mp hy
  have hoffset : utf8Length s - utf8Length y = utf8Length x := by
    rw [hs, utf8Length_append, Nat.add_sub_cancel]
  rw [hoffset]
  exact h x y hs hpass

theorem filterM_scan (h : Asks s p test) :
    ((scan s).filterM p).map (List.map (·.offset)) = some (offsets test s) := by
  rw [filterM_eq_some h.eq_some]
  exact congrArg some (map_filter_scan (x := []) h rfl)

theorem find?_scan (h : Asks s p test) :
    ((scan s).find? fun a => (p a).getD false).map (·.offset) =
      (firstCut? test s).map fun (x, _) => utf8Length x := by
  have hoffsets : ((scan s).filter fun a => (p a).getD false).map (·.offset) = offsets test s :=
    map_filter_scan (x := []) h rfl
  rw [← head?_offsets, ← hoffsets, List.head?_map, List.head?_filter]

theorem findM?_scan (h : Asks s p test) :
    ((scan s).findM? p).map (Option.map (·.offset)) =
      some ((firstCut? test s).map fun (x, _) => utf8Length x) := by
  rw [findM?_eq_some h.eq_some, ← find?_scan h]
  rfl

end Places

/-! ## Pieces -/

/-- The pieces of a text that are still to come, when one has been begun at an offset. -/
def piecesFrom? (sep : Char) (s : List Char) (first : Nat) : List Scanned → Option (List (List Char))
  | [] => do return [← slice? s first (utf8Length s)]
  | p :: ps =>
    if p.isTop && p.ch == sep then do
      let piece ← slice? s first p.offset
      return piece :: (← piecesFrom? sep s (p.offset + p.ch.utf8Size) ps)
    else piecesFrom? sep s first ps

def splitTop? (sep : Char) (s : List Char) : Option (List (List Char)) := do
  let pieces ← piecesFrom? sep s 0 (scan s)
  return (pieces.map trim).filter (!·.isEmpty)

/-- Where a character first stands outside quotes and brackets. -/
def findTop? (c : Char) (s : List Char) : Option Nat :=
  ((scan s).find? fun p => p.isTop && p.ch == c).map (·.offset)

section Pieces

variable {sep : Char} {s a b y p : List Char} {ps : List (List Char)}

theorem isTop_standsAt (sep : Char) (x : List Char) (c : Char) (t : List Char) :
    (((start.after x).mark c).isTop && ((start.after x).mark c).ch == sep) =
      (((start.after x).mark c).isTop && standsAt sep x.getLast? (c :: t)) := by
  rw [mark_ch]
  rfl

theorem asks_standsAt (sep : Char) (s : List Char) :
    Asks s (fun p => some (p.isTop && p.ch == sep)) (standsAt sep) :=
  fun x c t _ => congrArg some (isTop_standsAt sep x c t)

theorem findTop?_eq (c : Char) (s : List Char) :
    findTop? c s = (cutAtTop? c s).map fun (x, _) => utf8Length x := by
  rw [findTop?, cutAtTop?, Option.map_map]
  exact find?_scan (asks_standsAt c s)

/-- What is in front of a character that stands at top, and what is behind it. -/
theorem findTop?_cases (c : Char) (s : List Char) :
    (cutAtTop? c s = none ∧ findTop? c s = none) ∨
    ∃ x y, s = x ++ c :: y ∧ cutAtTop? c s = some (x, y) ∧ findTop? c s = some (utf8Length x) := by
  rw [findTop?_eq, cutAtTop?]
  cases hcut : firstCut? (standsAt c) s with
  | none => exact .inl ⟨rfl, rfl⟩
  | some cut =>
    obtain ⟨x, r⟩ := cut
    obtain ⟨rfl, ⟨d, y, rfl, -, hat⟩, -⟩ := firstCut?_eq_some_iff.mp hcut
    obtain rfl : d = c := Option.some.inj (beq_iff_eq.mp hat)
    exact .inr ⟨x, y, rfl, rfl, rfl⟩

/-- The text is what is cut off already, what belongs to the piece that has been begun, and the rest. -/
theorem piecesFrom?_eq (hs : s = a ++ (b ++ y))
    (hparts : (start.after (a ++ b)).parts (standsAt sep) (a ++ b).getLast? y = p :: ps) :
    piecesFrom? sep s (utf8Length a) ((start.after (a ++ b)).scan (utf8Length (a ++ b)) y) =
      some ((b ++ p) :: ps.map (·.drop 1)) := by
  induction y generalizing a b p ps with
  | nil =>
    obtain ⟨rfl, rfl⟩ := List.cons.inj hparts
    rw [List.append_nil] at hs
    rw [Nesting.scan, piecesFrom?, hs, slice?_back, List.append_nil]
    rfl
  | cons c y ih =>
    have hnext : (start.after (a ++ b)).next c = start.after (a ++ b ++ [c]) := by
      rw [after_append _ _ [c]]; rfl
    have hlength : utf8Length (a ++ b) + c.utf8Size = utf8Length (a ++ b ++ [c]) := by
      rw [utf8Length_append _ [c]]; rfl
    have hlast : some c = (a ++ b ++ [c]).getLast? := by simp
    obtain ⟨q, qs, hq⟩ := List.exists_cons_of_ne_nil (parts_ne_nil_from (standsAt sep)
      ((start.after (a ++ b)).next c) (some c) y)
    rw [Nesting.parts, hq, consHead, ← isTop_standsAt] at hparts
    rw [hnext, hlast] at hq
    rw [Nesting.scan, piecesFrom?]
    -- A separator ends the piece, and the next one begins behind it; else the piece grows.
    split at hparts
    · next hhere =>
      obtain ⟨rfl, rfl⟩ := List.cons.inj hparts
      have hpiece : slice? s (utf8Length a) (utf8Length (a ++ b)) = some b := by
        rw [hs, utf8Length_append]
        exact slice?_append a b (c :: y)
      have hrest := ih (a := a ++ b ++ [c]) (b := []) (by rw [hs]; simp) (by rwa [List.append_nil])
      rw [List.append_nil] at hrest
      rw [if_pos hhere, hpiece, mark_ch, hnext, hlength, hrest]
      simp
    · next hhere =>
      obtain ⟨rfl, rfl⟩ := List.cons.inj hparts
      have hrest := ih (a := a) (b := b ++ [c]) (by rw [hs]; simp) (by rwa [← List.append_assoc])
      rw [← List.append_assoc] at hrest
      rw [if_neg hhere, hnext, hlength, hrest]
      simp

theorem splitTop?_eq (sep : Char) (s : List Char) : splitTop? sep s = some (splitTop sep s) := by
  obtain ⟨p, ps, hparts⟩ := List.exists_cons_of_ne_nil (parts_ne_nil (standsAt sep) s)
  have hpieces : piecesFrom? sep s 0 (scan s) = some (segments sep s) := by
    rw [segments, hparts]
    exact piecesFrom?_eq (a := []) (b := []) rfl hparts
  rw [splitTop?, hpieces]
  rfl

end Pieces

/-! ## Partners -/

/-- The offset of the bracket that closes the unquoted opening bracket at an offset, if there is one. No
slice is taken for it. -/
def partnerOffset? (s : List Char) (k : Nat) : Option Nat := do
  let opener ← (scan s).find? (·.offset == k)
  if opener.quoted || !isOpener opener.ch then none
  else
    let closer ← (scan s).find? fun p =>
      decide (k < p.offset) && !p.quoted && isCloser p.ch && p.depth == opener.depth
    return closer.offset

section Partner

variable {n : Nesting} {k offset : Nat} {s : List Char}

theorem lt_of_mem_scan {a : Scanned} (h : a ∈ n.scan offset s) :
    offset ≤ a.offset ∧ a.offset < offset + utf8Length s := by
  obtain ⟨x, c, t, rfl, rfl⟩ := exists_of_mem_scan h
  have hpos := c.utf8Size_pos
  simp only [utf8Length_append, utf8Length]
  omega

theorem find?_scan_closer (hk : k < offset) (n : Nesting) (depth : Nat) (s : List Char) :
    ((n.scan offset s).find? fun p =>
      decide (k < p.offset) && !p.quoted && isCloser p.ch && p.depth == depth).map (·.offset) =
      (n.cutAtCloser? depth s).map fun (x, _) => offset + utf8Length x := by
  induction s generalizing n offset with
  | nil => rfl
  | cons c s ih =>
    have hlater : k < offset + c.utf8Size := by omega
    have hrest := ih hlater (n.next c)
    rw [Nesting.scan, List.find?_cons, cutAtCloser?, mark_ch, decide_eq_true hk]
    cases hquoted : (n.mark c).quoted <;> cases hcloser : isCloser c <;>
      cases hdepth : (n.mark c).depth == depth <;>
      simp [utf8Length, hrest, Function.comp_def, Nat.add_assoc]

/-- An opening bracket and its partner are found by their offsets. -/
theorem partnerOffset?_append (a t : List Char) : partnerOffset? (a ++ t) (utf8Length a) =
    ((start.after a).cutAtPartner? t).map fun (x, _) => utf8Length a + 1 + utf8Length x := by
  -- Up to the opening bracket there is nothing that either search looks for.
  have hskip : ∀ q : Scanned → Bool, (∀ p, q p = true → utf8Length a ≤ p.offset) →
      (scan (a ++ t)).find? q = ((start.after a).scan (utf8Length a) t).find? q := by
    intro q hq
    have hnone : (scan a).find? q = none := List.find?_eq_none.mpr fun p hp hpass => by
      have hlt := (lt_of_mem_scan hp).2
      have hle := hq p hpass
      omega
    rw [scan, scan_append, List.find?_append, Nat.zero_add]
    exact congrArg (Option.or · _) hnone
  have hat := hskip (·.offset == utf8Length a) fun p hp => Nat.le_of_eq (beq_iff_eq.mp hp).symm
  rw [partnerOffset?, hat]
  cases t with
  | nil => rfl
  | cons c t =>
    rw [Nesting.scan, List.find?_cons, Nesting.cutAtPartner?]
    dsimp only
    rw [beq_self_eq_true]
    dsimp only [Option.bind_eq_bind, Option.bind_some]
    rw [mark_ch]
    cases ho : isOpener c with
    | false => simp
    | true =>
      cases hquoted : ((start.after a).mark c).quoted with
      | true => simp
      | false =>
        have hcloser := find?_scan_closer (Nat.lt_add_one (utf8Length a))
          ((start.after a).next c) (start.after a).depth t
        rw [hskip _ fun p hp => by simp at hp; omega, Nesting.scan, List.find?_cons,
          depth_mark_opener (quote_eq_none_of_mark hquoted) ho, utf8Size_of_isOpener ho,
          decide_eq_false (Nat.lt_irrefl _)]
        simpa [Option.map_eq_bind, Function.comp_def] using hcloser

/-- Tells whether the bracket that a text begins with is closed by its last byte. -/
def endsAtPartner? (s : List Char) : Option Bool := do
  return partnerOffset? s 0 == some (← (utf8Length s).ppred)

/-- A text without its first byte and its last. -/
def inner? (s : List Char) : Option (List Char) := do
  slice? s 1 (← (utf8Length s).ppred)

theorem inner?_eq {o c : Char} (ho : o.utf8Size = 1) (hc : c.utf8Size = 1) (x : List Char) :
    inner? (o :: (x ++ [c])) = some x := by
  have hlength : utf8Length (o :: (x ++ [c])) = 0 + 1 + utf8Length x + 1 := by
    rw [utf8Length, utf8Length_append, utf8Length, ho, hc, Nat.add_assoc]
    rfl
  rw [inner?, hlength]
  exact slice?_inside [] ho x [c]

/-- The bracket that a text begins with, and the one that closes it. -/
theorem partnerOffset?_cases (s : List Char) :
    (cutAtPartner? s = none ∧ partnerOffset? s 0 = none) ∨
    ∃ o x c y, s = o :: (x ++ c :: y) ∧ isOpener o = true ∧ isCloser c = true ∧
      cutAtPartner? s = some (x, c :: y) ∧ partnerOffset? s 0 = some (1 + utf8Length x) := by
  have hpartner : partnerOffset? s 0 = (cutAtPartner? s).map fun (x, _) => 1 + utf8Length x :=
    partnerOffset?_append [] s
  cases hcut : cutAtPartner? s with
  | none => exact .inl ⟨rfl, by rw [hpartner, hcut]; rfl⟩
  | some cut =>
    obtain ⟨x, r⟩ := cut
    rw [hcut] at hpartner
    cases s with
    | nil => cases hcut
    | cons o s =>
      rw [SchemaLint.cutAtPartner?, Nesting.cutAtPartner?] at hcut
      split at hcut
      · next ho =>
        obtain ⟨c, y, rfl, rfl, hc, -⟩ := exists_of_cutAtCloser? hcut
        exact .inr ⟨o, x, c, y, rfl, (Bool.and_eq_true_iff.mp ho).1, hc, rfl, hpartner⟩
      · cases hcut

theorem endsAtPartner?_cases (hs : s ≠ []) :
    (endsAtPartner? s = some true ∧ ∃ o x c, s = o :: (x ++ [c]) ∧ isOpener o = true ∧
      isCloser c = true ∧ cutAtPartner? s = some (x, [c])) ∨
    (endsAtPartner? s = some false ∧ ∀ x c, cutAtPartner? s ≠ some (x, [c])) := by
  rcases partnerOffset?_cases s with ⟨hcut, hpartner⟩ | ⟨o, x, c, y, rfl, ho, hc, hcut, hpartner⟩
  · obtain ⟨c, t, rfl⟩ := List.exists_cons_of_ne_nil hs
    have hpos := c.utf8Size_pos
    refine .inr ⟨?_, fun x d h => ?_⟩
    · rw [endsAtPartner?, hpartner, Nat.ppred_eq_pred (by rw [utf8Length]; omega)]
      rfl
    · rw [hcut] at h
      cases h
  · have hlength : utf8Length (o :: (x ++ c :: y)) = 1 + utf8Length x + utf8Length y + 1 := by
      rw [utf8Length, utf8Length_append, utf8Length, utf8Size_of_isOpener ho, utf8Size_of_isCloser hc]
      omega
    have hends : endsAtPartner? (o :: (x ++ c :: y)) = some (utf8Length y == 0) := by
      rw [endsAtPartner?, hpartner, hlength, Nat.ppred_succ]
      simp [eq_comm]
    rw [hcut]
    cases y with
    | nil => exact .inl ⟨hends, o, x, c, rfl, ho, hc, rfl⟩
    | cons d y =>
      have hpos := d.utf8Size_pos
      refine .inr ⟨hends.trans (congrArg some ?_), by simp⟩
      rw [beq_eq_false_iff_ne, utf8Length]
      omega

end Partner

/-! ## Statements -/

/-- Tells whether the statement on a line ends in front of a character. -/
def endsStatement? (s : List Char) (p : Scanned) : Option Bool :=
  if !p.isTop then some false
  else if p.ch == ';' then some true
  else do return startsComment (← slice? s p.offset (utf8Length s))

def statementOf? (line : List Char) : Option (List Char) := do
  let trimmed := trim line
  let last ← (scan trimmed).findM? (endsStatement? trimmed)
  return trimEnd (← slice? trimmed 0 ((last.map (·.offset)).getD (utf8Length trimmed)))

theorem asks_statementEndsAt (s : List Char) : Asks s (endsStatement? s) statementEndsAt := by
  rintro x c t rfl
  rw [endsStatement?, slice?_back, mark_ch, statementEndsAt]
  cases htop : ((start.after x).mark c).isTop <;> cases hc : c == ';' <;> simp [hc]

theorem statementOf?_eq (line : List Char) : statementOf? line = some (statementOf line) := by
  obtain ⟨last, hlast, hoffset⟩ := Option.map_eq_some_iff.mp (findM?_scan (asks_statementEndsAt (trim line)))
  rw [statementOf?, hlast]
  dsimp only [Option.bind_eq_bind, Option.bind_some]
  rw [hoffset, statementOf]
  cases hcut : firstCut? statementEndsAt (trim line) with
  | none =>
    dsimp only [Option.map_none, Option.getD_none]
    rw [slice?_whole]
    rfl
  | some cut =>
    obtain ⟨x, y⟩ := cut
    dsimp only [Option.map_some, Option.getD_some]
    rw [(firstCut?_eq_some_iff.mp hcut).1, slice?_front]
    rfl

/-! ## Names -/

def unquote? (raw : List Char) : Option (List Char) :=
  let s := trim raw
  match s.head?, s.tail.getLast? with
  | some q, some r => if q == r && isQuote q && decide (2 ≤ utf8Length s) then inner? s else some s
  | _, _ => some s

def normalize? (raw : List Char) : Option (List Char) := do
  return ['.'].intercalate (← (Identifier.segments raw).mapM unquote?)

theorem unquote?_eq (raw : List Char) : unquote? raw = some (Identifier.unquote raw) := by
  rw [unquote?, Identifier.unquote]
  cases trim raw with
  | nil => rfl
  | cons q r =>
    rcases List.eq_nil_or_concat r with rfl | ⟨r, d, rfl⟩
    · simp
    · have hq := q.utf8Size_pos
      have hd := d.utf8Size_pos
      have hle : 2 ≤ utf8Length (q :: (r ++ [d])) := by
        simp only [utf8Length, utf8Length_append]
        omega
      simp only [List.concat_eq_append, List.head?_cons, List.tail_cons, List.getLast?_concat, hle]
      by_cases heq : q = d
      · subst heq
        by_cases hquote : isQuote q = true
        · simp [hquote, inner?_eq (utf8Size_of_isQuote hquote) (utf8Size_of_isQuote hquote)]
        · simp [hquote]
      · simp [heq, Ne.symm heq]

theorem normalize?_eq (raw : List Char) : normalize? raw = some (Identifier.normalize raw) := by
  rw [normalize?, mapM_eq_some fun segment _ => unquote?_eq segment]
  rfl

/-! ## Keywords -/

/-- Tells whether no character of identifiers stands in front of an offset. -/
def startsWord? (s : List Char) (k : Nat) : Option Bool :=
  if k = 0 then some true else do return !isWordByte (← (bytes s)[← k.ppred]?)

/-- Tells whether a keyword stands at a character. Where the text has no slice of its length, it does
not. -/
def standsAt? (keyword : String) (s : List Char) (p : Scanned) : Option Bool :=
  if !p.isTop then some false
  else
    match slice? s p.offset (p.offset + utf8Length keyword.toList) with
    | none => some false
    | some word => do
      let starts ← startsWord? s p.offset
      let ends := !(bytes s)[p.offset + utf8Length keyword.toList]?.any isWordByte
      return starts && ends && sameIgnoringCase word keyword.toList

def keywordOffsets? (keyword : String) (s : List Char) : Option (List Nat) := do
  return (← (scan s).filterM (standsAt? keyword s)).map (·.offset)

def firstKeyword? (keyword : String) (s : List Char) : Option (Option Nat) := do
  return (← keywordOffsets? keyword s).head?

section Keywords

variable {w : String} {s : List Char}

theorem startsWord?_eq (x y : List Char) :
    startsWord? (x ++ y) (utf8Length x) = some (!x.getLast?.any isIdentChar) := by
  rcases List.eq_nil_or_concat x with rfl | ⟨x, c, rfl⟩
  · rfl
  · rw [List.concat_eq_append]
    have hne : utf8Length (x ++ [c]) ≠ 0 := by
      have hpos := c.utf8Size_pos
      simp only [utf8Length_append, utf8Length]
      omega
    obtain ⟨k, hk⟩ := Nat.exists_eq_add_one_of_ne_zero hne
    obtain ⟨b, hb, hword⟩ := isWordByte_before hk.symm y
    rw [startsWord?, if_neg hne, hk, Nat.ppred_succ, List.append_assoc, List.singleton_append]
    dsimp only [Option.bind_eq_bind, Option.bind_some]
    rw [hb, List.getLast?_concat]
    exact congrArg (fun word => some !word) hword

theorem asks_isKeywordAt (w : String) (s : List Char) : Asks s (standsAt? w s) (isKeywordAt w) := by
  rintro x c t rfl
  cases htop : ((start.after x).mark c).isTop with
  | false => simp [standsAt?, htop]
  | true =>
    rw [standsAt?, isKeywordAt, htop]
    rcases slice?_word x (c :: t) w.toList with ⟨hslice, hstarts⟩ | ⟨v, y, hr, hv, hslice⟩
    · rw [hslice, hstarts]
      rfl
    · have hstarts : startsIgnoringCase w.toList (v ++ y) = sameIgnoringCase v w.toList :=
        startsIgnoringCase_append_of_length hv
      have hafter := isWordByte_after (x ++ v) y
      rw [utf8Length_append, hv, List.append_assoc] at hafter
      rw [hslice, hr, hstarts, hafter, startsWord?_eq]
      -- Only where the word stands does it matter what is behind it.
      cases hsame : sameIgnoringCase v w.toList with
      | false => simp [hsame]
      | true =>
        simp [drop_of_lower_eq (beq_iff_eq.mp hsame), hsame]

theorem keywordOffsets?_eq (w : String) (s : List Char) :
    keywordOffsets? w s = some (keywordOffsets w s) := by
  rw [keywordOffsets, ← filterM_scan (asks_isKeywordAt w s), Option.map_eq_bind]
  rfl

theorem exists_of_isKeywordAt {before : Option Char} {r : List Char}
    (h : isKeywordAt w before r = true) :
    ∃ v y, r = v ++ y ∧ lower v = lower w.toList ∧ r.drop w.length = y := by
  simp only [isKeywordAt, Bool.and_eq_true] at h
  obtain ⟨v, y, rfl, hv⟩ := exists_append_of_startsIgnoringCase h.1.1
  exact ⟨v, y, rfl, hv, drop_of_lower_eq hv y⟩

theorem firstKeyword?_eq (w : String) (s : List Char) : firstKeyword? w s =
    some ((firstCut? (isKeywordAt w) s).map fun (x, _) => utf8Length x) := by
  rw [firstKeyword?, keywordOffsets?_eq, ← head?_offsets]
  rfl

/-- What is in front of a keyword, the keyword as it is written, and what is behind it. -/
theorem firstKeyword?_cases (w : String) (s : List Char) :
    (cutAtKeyword? w s = none ∧ firstKeyword? w s = some none) ∨
    ∃ x v y, s = x ++ (v ++ y) ∧ utf8Length v = utf8Length w.toList ∧
      cutAtKeyword? w s = some (x, y) ∧ firstKeyword? w s = some (some (utf8Length x)) := by
  rw [firstKeyword?_eq, cutAtKeyword?]
  cases hcut : firstCut? (isKeywordAt w) s with
  | none => exact .inl ⟨rfl, rfl⟩
  | some cut =>
    obtain ⟨x, r⟩ := cut
    obtain ⟨rfl, ⟨-, -, -, -, hat⟩, -⟩ := firstCut?_eq_some_iff.mp hcut
    obtain ⟨v, y, rfl, hv, hdrop⟩ := exists_of_isKeywordAt hat
    exact .inr ⟨x, v, y, rfl, utf8Length_of_lower_eq hv, congrArg (fun y => some (x, y)) hdrop, rfl⟩

theorem isSome_firstKeyword? (w : String) (s : List Char) :
    (firstKeyword? w s).map (·.isSome) = some (hasKeyword w s) := by
  rw [firstKeyword?_eq, hasKeyword]
  exact congrArg some Option.isSome_map

theorem isNone_firstKeyword? (w : String) (s : List Char) :
    (firstKeyword? w s).map (·.isNone) = some (!hasKeyword w s) := by
  rw [firstKeyword?_eq, hasKeyword]
  cases firstCut? (isKeywordAt w) s <;> rfl

end Keywords

end Slicing

end SchemaLint
