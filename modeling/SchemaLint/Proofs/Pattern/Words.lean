import SchemaLint.Nesting
import SchemaLint.Text.Ascii
import SchemaLint.Proofs.Pattern.Walk
import SchemaLint.Proofs.Unicode.CodePoints
import SchemaLint.Proofs.Unicode.Fold

/-!
# Whole words in patterns

A pattern asks for a word by its letters between two word anchors. On a text this is the test
`isWordAt`: the letters in any ASCII case, with a word character on neither side.
-/

namespace SchemaLint

/-- Passes where a word stands that no word character continues. -/
def isWordAt (w : String) : PlaceTest :=
  fun before rest =>
    Text.startsIgnoringCase w.toList rest &&
      !before.any Unicode.isWord && !(rest.drop w.length).head?.any Unicode.isWord

/-- Tells whether some place of a text passes a test, quoted or not. -/
def somewhere (test : PlaceTest) : Option Char → List Char → Bool
  | before, [] => test before []
  | before, c :: s => test before (c :: s) || somewhere test (some c) s

/-- Tells whether a word stands on a line, be it in a quote or in a comment. -/
def hasWord (w : String) (line : List Char) : Bool :=
  somewhere (isWordAt w) none line

theorem somewhere_iff (test : PlaceTest) (b s : List Char) :
    somewhere test b.head? s = true ↔ ∃ u v, s = u ++ v ∧ test (u.reverse ++ b).head? v = true := by
  induction s generalizing b with
  | nil =>
    constructor
    · exact fun h => ⟨[], [], rfl, h⟩
    · rintro ⟨u, v, huv, h⟩
      obtain ⟨rfl, rfl⟩ := List.append_eq_nil_iff.mp huv.symm
      exact h
  | cons c s ih =>
    rw [somewhere, Bool.or_eq_true, show some c = (c :: b).head? from rfl, ih (c :: b)]
    constructor
    · rintro (h | ⟨u, v, rfl, h⟩)
      · exact ⟨[], c :: s, rfl, h⟩
      · exact ⟨c :: u, v, rfl, by simpa using h⟩
    · rintro ⟨u, v, huv, h⟩
      cases u with
      | nil =>
        obtain rfl : c :: s = v := huv
        exact .inl h
      | cons d u =>
        obtain ⟨rfl, rfl⟩ := List.cons.inj huv
        exact .inr ⟨u, v, rfl, by simpa using h⟩

end SchemaLint

namespace SchemaLint.Pattern

/-- A letter in any case. -/
def letter (c : Char) : Program :=
  .char (.folded (.single c))

/-- The letters of a word. -/
def letters (w : String) : List Program :=
  w.toList.map letter

variable {w : List Char} {ps : List Program} {a b : List Char}

theorem walk_letters (hw : ∀ l ∈ w, Unicode.IsPlainLetter l) :
    walk (w.map letter ++ ps) b a =
      if Text.startsIgnoringCase w a then walk ps ((a.take w.length).reverse ++ b) (a.drop w.length)
      else none := by
  induction w generalizing a b with
  | nil => simp [Text.startsIgnoringCase]
  | cons l w ih =>
    cases a with
    | nil => simp [walk, letter, Text.startsIgnoringCase]
    | cons c a =>
      have hmem := CharSet.mem_folded_single (c := c) (hw l List.mem_cons_self)
      have ih' := ih (a := a) (b := c :: b) fun d hd => hw d (List.mem_cons_of_mem l hd)
      have hcomm : (l.toLower == c.toLower) = (c.toLower == l.toLower) := BEq.comm
      simp only [List.map_cons, List.cons_append, letter, walk, hmem, Text.startsIgnoringCase, hcomm]
      cases hc : c.toLower == l.toLower with
      | false => simp
      | true => simpa [letter] using ih'

/-- The letters of a word are passed where the word stands in any case. -/
theorem walk_letters_append {v : List Char} (hw : ∀ l ∈ w, Unicode.IsPlainLetter l)
    (h : Text.lower v = Text.lower w) :
    walk (w.map letter ++ ps) b (v ++ a) = walk ps (v.reverse ++ b) a := by
  rw [walk_letters hw, if_pos (Text.startsIgnoringCase_append h), ← Text.length_eq_of_lower h,
    List.take_left, List.drop_left]

/-- A word between two word anchors. -/
def wholeWord (w : String) : List Program :=
  .anchor .wordEdge :: letters w ++ [.anchor .wordEdge]

theorem isWord_of_startsIgnoringCase (hw : ∀ l ∈ w, Unicode.IsPlainLetter l)
    (h : Text.startsIgnoringCase w a = true) : ∀ c ∈ a.take w.length, Unicode.isWord c = true := by
  obtain ⟨v, r, rfl, hv⟩ := Text.exists_append_of_startsIgnoringCase h
  rw [← Text.length_eq_of_lower hv, List.take_left]
  intro c hc
  have hmem : c.toLower ∈ Text.lower w := by
    rw [← hv]
    exact List.mem_map_of_mem hc
  obtain ⟨l, hl, heq⟩ := List.mem_map.mp hmem
  exact Unicode.isWord_of_toLower (heq ▸ (hw l hl).isAlpha_toLower)

theorem length_le_of_startsIgnoringCase (h : Text.startsIgnoringCase w a = true) :
    w.length ≤ a.length := by
  obtain ⟨v, r, rfl, hv⟩ := Text.exists_append_of_startsIgnoringCase h
  rw [← Text.length_eq_of_lower hv, List.length_append]
  omega

/-- A place next to a word character is an edge of a word when its other side is not one. -/
theorem holds_wordEdge :
    Anchor.wordEdge.holds (.between b a) =
      (b.head?.any Unicode.isWord != a.head?.any Unicode.isWord) := rfl

/-- After the letters of a word there is an edge unless a word character follows. -/
theorem isAfterWord_of_startsIgnoringCase (hw : ∀ l ∈ w, Unicode.IsPlainLetter l) (hne : w ≠ [])
    (h : Text.startsIgnoringCase w a = true) :
    ((a.take w.length).reverse ++ b).head?.any Unicode.isWord = true := by
  have hlen := length_le_of_startsIgnoringCase h
  have hpos := List.length_pos_of_ne_nil hne
  have htake : a.take w.length ≠ [] := by
    rw [← List.length_pos_iff, List.length_take]
    omega
  have hlast := isWord_of_startsIgnoringCase hw h _ (List.getLast_mem htake)
  rw [List.head?_append, List.head?_reverse, List.getLast?_eq_some_getLast htake]
  exact hlast

theorem isBeforeWord_of_startsIgnoringCase (hw : ∀ l ∈ w, Unicode.IsPlainLetter l) (hne : w ≠ [])
    (h : Text.startsIgnoringCase w a = true) : a.head?.any Unicode.isWord = true := by
  cases w with
  | nil => exact absurd rfl hne
  | cons l w =>
    cases a with
    | nil => exact absurd h (by simp [Text.startsIgnoringCase])
    | cons d a => exact isWord_of_startsIgnoringCase hw h d List.mem_cons_self

/-- A whole word lets a search pass exactly where the word stands. -/
theorem isSome_walk_wholeWord {w : String} (hw : ∀ l ∈ w.toList, Unicode.IsPlainLetter l)
    (hne : w.toList ≠ []) :
    (walk (wholeWord w) b a).isSome = isWordAt w b.head? a := by
  rw [wholeWord, List.cons_append, walk, holds_wordEdge, letters, walk_letters hw, isWordAt,
    ← String.length_toList]
  cases hs : Text.startsIgnoringCase w.toList a with
  | false => simp
  | true =>
    rw [isBeforeWord_of_startsIgnoringCase hw hne hs, if_pos rfl, walk, holds_wordEdge,
      isAfterWord_of_startsIgnoringCase hw hne hs]
    cases b.head?.any Unicode.isWord <;>
      cases (a.drop w.toList.length).head?.any Unicode.isWord <;> simp [walk]

/-- A word does not begin where its first letter does not stand. -/
theorem somewhere_append {w : String} {l : Char} {v : List Char} (hl : w.toList.head? = some l)
    (u b : List Char) (hu : ∀ c ∈ u, c.toLower ≠ l.toLower) :
    somewhere (isWordAt w) b.head? (u ++ v) = somewhere (isWordAt w) (u.reverse ++ b).head? v := by
  induction u generalizing b with
  | nil => rfl
  | cons c u ih =>
    have hnot : isWordAt w b.head? (c :: (u ++ v)) = false := by
      obtain ⟨rest, hrest⟩ : ∃ rest, w.toList = l :: rest := by
        cases hw : w.toList with
        | nil => simp [hw] at hl
        | cons m rest => exact ⟨rest, by simpa [hw] using hl⟩
      have hne := Ne.symm (hu c List.mem_cons_self)
      simp [isWordAt, hrest, Text.startsIgnoringCase, hne]
    rw [List.cons_append, somewhere, hnot, Bool.false_or, show some c = (c :: b).head? from rfl,
      ih (c :: b) fun d hd => hu d (List.mem_cons_of_mem c hd)]
    simp

end SchemaLint.Pattern
