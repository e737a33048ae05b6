import Mathlib.Data.List.Basic
import Mathlib.Data.List.TakeWhile
import SchemaLint.Identifier
import SchemaLint.Text.Ascii
import SchemaLint.Text.Blank

/-!
# Trimmed texts

A text is trimmed when it neither begins nor ends with a blank. Trimming gives such a text and
leaves such a text as it is; blanks put around a text do not change what is left of it. What holds
of all ASCII characters is seen one character at a time.

Quotes are taken off a name only in pairs, so nothing is taken off a name that does not end with the
quote it begins with (`unquote_eq_self`). A name is called by what stands behind its last dot, whatever
stands in front of it (`unqualified_append_dot`).
-/

namespace SchemaLint.Text

/-- Neither the first nor the last character is a blank. -/
structure Trimmed (s : List Char) : Prop where
  head : ∀ c ∈ s.head?, isBlank c = false
  last : ∀ c ∈ s.getLast?, isBlank c = false

instance (s : List Char) : Decidable (Trimmed s) :=
  decidable_of_iff (s.head?.all (!isBlank ·) = true ∧ s.getLast?.all (!isBlank ·) = true) <| by
    simp only [Option.all_eq_true, Bool.not_eq_true']
    exact ⟨fun h => ⟨h.1, h.2⟩, fun h => ⟨h.head, h.last⟩⟩

/-! ## Both ends apart -/

theorem trimStart_of_head {s : List Char} (h : ∀ c ∈ s.head?, isBlank c = false) :
    trimStart s = s := by
  cases s with
  | nil => rfl
  | cons c s =>
    have hc : isBlank c = false := h c rfl
    simp [trimStart, hc]

theorem trimEnd_of_last {s : List Char} (h : ∀ c ∈ s.getLast?, isBlank c = false) :
    trimEnd s = s := by
  have hrev : trimStart s.reverse = s.reverse :=
    trimStart_of_head fun c hc => h c (by simpa using hc)
  unfold trimEnd
  rw [show s.reverse.dropWhile isBlank = s.reverse from hrev, List.reverse_reverse]

theorem trimStart_blank_append {gap : List Char} (hgap : ∀ c ∈ gap, isBlank c = true)
    (s : List Char) : trimStart (gap ++ s) = trimStart s :=
  List.dropWhile_append_of_pos hgap

theorem trimEnd_append_blank {gap : List Char} (hgap : ∀ c ∈ gap, isBlank c = true)
    (s : List Char) : trimEnd (s ++ gap) = trimEnd s := by
  unfold trimEnd
  rw [List.reverse_append,
    List.dropWhile_append_of_pos fun c hc => hgap c (List.mem_reverse.mp hc)]

/-- Dropping blanks at the start leaves the end of a text, unless nothing is left. -/
theorem getLast?_trimStart {s : List Char} (h : trimStart s ≠ []) :
    (trimStart s).getLast? = s.getLast? := by
  have hsplit : s.takeWhile isBlank ++ trimStart s = s := List.takeWhile_append_dropWhile
  conv_rhs => rw [← hsplit, List.getLast?_append_of_ne_nil _ h]

/-- The character before what follows a text is its last one, or the one before it if it is empty. -/
theorem getLast?_cons_or (c : Char) (s : List Char) (before : Option Char) :
    (c :: s).getLast?.or before = s.getLast?.or (some c) := by
  cases s <;> simp [List.getLast?_cons]

theorem head?_trimEnd {s : List Char} (h : trimEnd s ≠ []) : (trimEnd s).head? = s.head? := by
  have hrev : trimStart s.reverse ≠ [] := fun hnil => h (by
    unfold trimEnd
    rw [show s.reverse.dropWhile isBlank = [] from hnil, List.reverse_nil])
  have hlast := getLast?_trimStart hrev
  rw [List.getLast?_reverse] at hlast
  unfold trimEnd
  rw [List.head?_reverse]
  exact hlast

theorem isBlank_head_trimStart (s : List Char) : ∀ c ∈ (trimStart s).head?, isBlank c = false := by
  intro c hc
  have := List.head?_dropWhile_not isBlank s
  unfold trimStart at hc
  rw [hc] at this
  simpa using this

theorem isBlank_last_trimEnd (s : List Char) : ∀ c ∈ (trimEnd s).getLast?, isBlank c = false := by
  intro c hc
  unfold trimEnd at hc
  rw [List.getLast?_reverse] at hc
  exact isBlank_head_trimStart s.reverse c hc

/-! ## Trimming -/

theorem Trimmed.trim_eq {s : List Char} (h : Trimmed s) : trim s = s := by
  unfold trim
  rw [trimStart_of_head h.head, trimEnd_of_last h.last]

/-- What is left after trimming is trimmed. -/
theorem trimmed_trim (s : List Char) : Trimmed (trim s) := by
  refine ⟨?_, isBlank_last_trimEnd _⟩
  intro c hc
  have hne : trimEnd (trimStart s) ≠ [] := by
    intro hnil
    unfold trim at hc
    rw [hnil] at hc
    cases hc
  unfold trim at hc
  rw [head?_trimEnd hne] at hc
  exact isBlank_head_trimStart s c hc

theorem trim_blank_append {gap : List Char} (hgap : ∀ c ∈ gap, isBlank c = true) (s : List Char) :
    trim (gap ++ s) = trim s := by
  unfold trim
  rw [trimStart_blank_append hgap]

/-- Blanks after a text do not change what trimming leaves of it. -/
theorem trim_append_blank {gap : List Char} (hgap : ∀ c ∈ gap, isBlank c = true) (s : List Char) :
    trim (s ++ gap) = trim s := by
  unfold trim
  by_cases hs : ∀ c ∈ s, isBlank c = true
  · have hall : ∀ c ∈ s ++ gap, isBlank c = true := by
      intro c hc
      rcases List.mem_append.mp hc with hc | hc
      · exact hs c hc
      · exact hgap c hc
    unfold trimStart
    rw [List.dropWhile_eq_nil_iff.mpr hs, List.dropWhile_eq_nil_iff.mpr hall]
  · have hne : trimStart s ≠ [] := fun hnil => hs (List.dropWhile_eq_nil_iff.mp hnil)
    have happ : trimStart (s ++ gap) = trimStart s ++ gap := by
      unfold trimStart at hne ⊢
      rw [List.dropWhile_append, if_neg (by simpa using hne)]
    rw [happ, trimEnd_append_blank hgap]

/-- Trimming drops exactly the blanks around a trimmed text. -/
theorem Trimmed.trim_between {s gap gap' : List Char} (h : Trimmed s)
    (hgap : ∀ c ∈ gap, isBlank c = true) (hgap' : ∀ c ∈ gap', isBlank c = true) :
    trim (gap ++ s ++ gap') = s := by
  rw [trim_append_blank hgap', trim_blank_append hgap, h.trim_eq]

theorem Trimmed.append {s t : List Char} (hs : Trimmed s) (hne : s ≠ [])
    (ht : ∀ c ∈ t.getLast?, isBlank c = false) : Trimmed (s ++ t) := by
  constructor
  · rw [List.head?_append_of_ne_nil _ hne]
    exact hs.head
  · intro c hc
    rcases List.eq_nil_or_concat t with rfl | ⟨t, d, rfl⟩
    · rw [List.append_nil] at hc
      exact hs.last c hc
    · rw [List.concat_eq_append, ← List.append_assoc, List.getLast?_concat] at hc
      exact ht c (by rw [List.concat_eq_append, List.getLast?_concat]; exact hc)

theorem Trimmed.spaced {s t : List Char} (hs : Trimmed s) (ht : Trimmed t) (hne : s ≠ [])
    (hne' : t ≠ []) : Trimmed (s ++ ' ' :: t) := by
  refine hs.append hne fun c hc => ht.last c ?_
  rwa [← List.singleton_append, List.getLast?_append_of_ne_nil _ hne'] at hc

theorem isBlank_nil : ∀ c ∈ ([] : List Char), isBlank c = true :=
  nofun

theorem isBlank_space : ∀ c ∈ [' '], isBlank c = true :=
  List.all_eq_true.mp (by decide)

/-! ## Parts of a text -/

theorem exists_append_trimEnd (s : List Char) : ∃ gap, s = trimEnd s ++ gap := by
  refine ⟨(s.reverse.takeWhile isBlank).reverse, ?_⟩
  rw [trimEnd, ← List.reverse_append, List.takeWhile_append_dropWhile, List.reverse_reverse]

/-- Trimming drops blanks, at both ends. -/
theorem exists_append_trim (s : List Char) : ∃ gap gap', (∀ c ∈ gap, isBlank c = true) ∧
    (∀ c ∈ gap', isBlank c = true) ∧ s = gap ++ trim s ++ gap' := by
  refine ⟨s.takeWhile isBlank, ((trimStart s).reverse.takeWhile isBlank).reverse, ?_, ?_, ?_⟩
  · intro c hc
    exact List.mem_takeWhile_imp hc
  · intro c hc
    exact List.mem_takeWhile_imp (List.mem_reverse.mp hc)
  · rw [List.append_assoc, trim, trimEnd, ← List.reverse_append, List.takeWhile_append_dropWhile,
      List.reverse_reverse, trimStart, List.takeWhile_append_dropWhile]

/-- A text that begins with no blank is trimmed at its end only. -/
theorem exists_append_trim_of_head {s : List Char} (h : ∃ c ∈ s.head?, isBlank c = false) :
    ∃ gap, (∀ c ∈ gap, isBlank c = true) ∧ s = trim s ++ gap ∧ trim s ≠ [] := by
  obtain ⟨c, hc, hblank⟩ := h
  obtain ⟨gap, gap', hgap, hgap', hsplit⟩ := exists_append_trim s
  have hnot : ∀ d ∈ s.head?, isBlank d ≠ true := by
    intro d hd hb
    obtain rfl := Option.some.inj (hc.symm.trans hd)
    rw [hblank] at hb
    cases hb
  cases gap with
  | cons b gap => exact absurd (hgap b List.mem_cons_self) (hnot b (by rw [hsplit]; rfl))
  | nil =>
    refine ⟨gap', hgap', hsplit, fun hnil => ?_⟩
    rw [hnil, List.nil_append, List.nil_append] at hsplit
    exact hnot c hc (hgap' c (List.mem_of_head? (hsplit ▸ hc)))

theorem head?_trim {s : List Char} (h : ∃ c ∈ s.head?, isBlank c = false) :
    (trim s).head? = s.head? := by
  obtain ⟨gap, -, hsplit, hne⟩ := exists_append_trim_of_head h
  conv_rhs => rw [hsplit, List.head?_append_of_ne_nil _ hne]

/-- Blanks behind what stands behind a trimmed text are dropped. -/
theorem Trimmed.trim_spaced {s p : List Char} (hs : Trimmed s) (hne : s ≠ [])
    (hp : ∃ c ∈ p.head?, isBlank c = false) : trim (s ++ ' ' :: p) = s ++ ' ' :: trim p := by
  obtain ⟨gap, hgap, hsplit, hne'⟩ := exists_append_trim_of_head hp
  have hwhole := (hs.spaced (trimmed_trim p) hne hne').trim_eq
  rw [← trim_append_blank hgap, List.append_assoc, List.cons_append, ← hsplit] at hwhole
  exact hwhole

theorem mem_of_mem_trim {s : List Char} {c : Char} (h : c ∈ trim s) : c ∈ s := by
  obtain ⟨gap, hgap⟩ := exists_append_trimEnd (trimStart s)
  have hstart : c ∈ trimStart s := by
    rw [hgap]
    exact List.mem_append_left gap h
  exact (List.dropWhile_suffix isBlank).subset hstart

theorem mem_consHead {c : Char} {p : List Char} {ps : List (List Char)} (h : p ∈ consHead c ps) :
    p = [c] ∨ p ∈ ps ∨ ∃ q ∈ ps, p = c :: q := by
  cases ps with
  | nil => exact .inl (List.mem_singleton.mp h)
  | cons q ps =>
    rcases List.mem_cons.mp h with rfl | h
    · exact .inr (.inr ⟨q, List.mem_cons_self, rfl⟩)
    · exact .inr (.inl (List.mem_cons_of_mem q h))

theorem flatten_consHead (c : Char) (ps : List (List Char)) :
    (consHead c ps).flatten = c :: ps.flatten := by
  cases ps <;> simp [consHead]

/-- The pieces of a text are the text without its separators. -/
theorem flatten_pieces (q : Char → Bool) (s : List Char) :
    (pieces q s).flatten = s.filter (!q ·) := by
  induction s with
  | nil => rfl
  | cons c s ih =>
    rw [pieces]
    cases hc : q c with
    | true =>
      rw [if_pos rfl, List.flatten_cons, List.nil_append, ih,
        List.filter_cons_of_neg (by simp [hc])]
    | false =>
      rw [if_neg Bool.false_ne_true, flatten_consHead, ih, List.filter_cons_of_pos (by simp [hc])]

theorem flatten_words (s : List Char) : (words s).flatten = s.filter (!isBlank ·) := by
  rw [words, List.flatten_filter_not_isEmpty, flatten_pieces]

/-- No separator is left in the pieces of a text. -/
theorem not_mem_pieces {q : Char → Bool} {s : List Char} :
    ∀ p ∈ pieces q s, ∀ c ∈ p, q c = false := by
  induction s with
  | nil =>
    intro p hp c hc
    rw [pieces, List.mem_singleton] at hp
    simp [hp] at hc
  | cons d s ih =>
    intro p hp c hc
    rw [pieces] at hp
    split at hp
    · rcases List.mem_cons.mp hp with rfl | hp
      · exact absurd hc List.not_mem_nil
      · exact ih p hp c hc
    · next hd =>
      rw [Bool.not_eq_true] at hd
      rcases mem_consHead hp with rfl | hp | ⟨q, hq, rfl⟩
      · rwa [List.mem_singleton.mp hc]
      · exact ih p hp c hc
      · rcases List.mem_cons.mp hc with rfl | hc
        · exact hd
        · exact ih q hq c hc

theorem pieces_of_forall {q : Char → Bool} {s : List Char} (h : ∀ c ∈ s, q c = false) :
    pieces q s = [s] := by
  induction s with
  | nil => rfl
  | cons c s ih =>
    rw [pieces, ih fun d hd => h d (List.mem_cons_of_mem c hd)]
    simp [h c List.mem_cons_self, consHead]

theorem pieces_ne_nil (q : Char → Bool) (s : List Char) : pieces q s ≠ [] := by
  cases s with
  | nil => simp [pieces]
  | cons c s =>
    rw [pieces]
    split
    · simp
    · cases pieces q s <;> simp [consHead]

/-- A separator ends the pieces of the text before it. -/
theorem pieces_append_sep {q : Char → Bool} {c : Char} (hc : q c = true) (s t : List Char) :
    pieces q (s ++ c :: t) = pieces q s ++ pieces q t := by
  induction s with
  | nil => simp [pieces, hc]
  | cons d s ih =>
    obtain ⟨p, ps, hp⟩ := List.exists_cons_of_ne_nil (pieces_ne_nil q s)
    rw [List.cons_append, pieces, pieces, ih, hp]
    split <;> rfl

/-- A blank ends the words of the text before it. -/
theorem words_append_cons {b : Char} (hb : isBlank b = true) (s t : List Char) :
    words (s ++ b :: t) = words s ++ words t := by
  rw [words, pieces_append_sep hb, List.filter_append]
  rfl

theorem words_blank_append {gap : List Char} (hgap : ∀ c ∈ gap, isBlank c = true) (s : List Char) :
    words (gap ++ s) = words s := by
  induction gap with
  | nil => rfl
  | cons b gap ih =>
    have hlater := ih fun c hc => hgap c (List.mem_cons_of_mem b hc)
    rw [List.cons_append, ← hlater]
    exact words_append_cons (hgap b List.mem_cons_self) [] (gap ++ s)

theorem words_append_spaced {gap : List Char} (hne : gap ≠ []) (hgap : ∀ c ∈ gap, isBlank c = true)
    (s t : List Char) : words (s ++ (gap ++ t)) = words s ++ words t := by
  obtain ⟨b, gap, rfl⟩ := List.exists_cons_of_ne_nil hne
  rw [List.cons_append, words_append_cons (hgap b List.mem_cons_self),
    words_blank_append fun c hc => hgap c (List.mem_cons_of_mem b hc)]

theorem words_append_blank {gap : List Char} (hgap : ∀ c ∈ gap, isBlank c = true) (s : List Char) :
    words (s ++ gap) = words s := by
  cases gap with
  | nil => rw [List.append_nil]
  | cons b gap =>
    have h := words_append_spaced (List.cons_ne_nil b gap) hgap s []
    rwa [List.append_nil, show words [] = [] from rfl, List.append_nil] at h

theorem words_of_forall {s : List Char} (hne : s ≠ []) (h : ∀ c ∈ s, isBlank c = false) :
    words s = [s] := by
  rw [words, pieces_of_forall h, List.filter_cons_of_pos (by simpa using hne), List.filter_nil]

/-- A line holds no line end. -/
theorem not_mem_lines {s l : List Char} (h : l ∈ lines s) : '\n' ∉ l := by
  have hpiece : l ∈ pieces (· == '\n') s := by
    rw [lines] at h
    split at h
    · exact absurd h List.not_mem_nil
    · split at h
      · exact List.dropLast_subset _ h
      · exact h
  intro hmem
  simpa using not_mem_pieces l hpiece '\n' hmem

/-! ## ASCII characters -/

theorem toNat_lt_of_isAlpha {c : Char} (h : c.isAlpha = true) : c.toNat < 128 := by
  rcases Bool.or_eq_true_iff.mp h with h | h
  · have hle : 'A'.val ≤ c.val ∧ c.val ≤ 'Z'.val := of_decide_eq_true h
    exact Nat.lt_of_le_of_lt hle.2 (by decide)
  · have hle : c.val ≤ 'z'.val := of_decide_eq_true (Bool.and_eq_true_iff.mp h).2
    exact Nat.lt_of_le_of_lt hle (by decide)

theorem forall_ascii {P : Char → Prop} (h : ∀ n < 128, P (Char.ofNat n)) {c : Char}
    (hc : c.toNat < 128) : P c := by
  rw [← Char.ofNat_toNat c]
  exact h c.toNat hc

/-! ## Lengths in bytes -/

theorem utf8Length_append (s t : List Char) : utf8Length (s ++ t) = utf8Length s + utf8Length t := by
  induction s with
  | nil => exact (Nat.zero_add _).symm
  | cons c s ih => rw [List.cons_append, utf8Length, utf8Length, ih, Nat.add_assoc]

/-- Texts that begin alike and are equally long are equal. -/
theorem append_inj_of_utf8Length {a b s t : List Char} (h : a ++ s = b ++ t)
    (hlen : utf8Length a = utf8Length b) : a = b := by
  induction a generalizing b with
  | nil =>
    cases b with
    | nil => rfl
    | cons c b =>
      have hc := c.utf8Size_pos
      simp only [utf8Length] at hlen
      omega
  | cons c a ih =>
    cases b with
    | nil =>
      have hc := c.utf8Size_pos
      simp only [utf8Length] at hlen
      omega
    | cons d b =>
      obtain ⟨rfl, htail⟩ := List.cons.inj h
      rw [ih htail (Nat.add_left_cancel hlen)]

/-! ## Case of ASCII letters -/

section Case

variable {w v : List Char}

theorem length_eq_of_lower (h : lower v = lower w) : v.length = w.length := by
  simpa [lower] using congrArg List.length h

/-- What is behind a word, whatever the case of its letters. -/
theorem drop_of_lower_eq {w : String} (h : lower v = lower w.toList) (s : List Char) :
    (v ++ s).drop w.length = s := by
  rw [← String.length_toList, ← length_eq_of_lower h, List.drop_left]

theorem startsIgnoringCase_append {s : List Char} (h : lower v = lower w) :
    startsIgnoringCase w (v ++ s) = true := by
  induction w generalizing v with
  | nil => rfl
  | cons l w ih =>
    cases v with
    | nil => exact absurd h (by simp [lower])
    | cons c v =>
      obtain ⟨hc, hv⟩ := List.cons.inj h
      simp only [List.cons_append, startsIgnoringCase, hc, beq_self_eq_true, Bool.true_and]
      exact ih hv

/-- What a text starts with is written there, in any case. -/
theorem exists_append_of_startsIgnoringCase {s : List Char} (h : startsIgnoringCase w s = true) :
    ∃ v r, s = v ++ r ∧ lower v = lower w := by
  induction w generalizing s with
  | nil => exact ⟨[], s, rfl, rfl⟩
  | cons l w ih =>
    cases s with
    | nil => cases h
    | cons c s =>
      rw [startsIgnoringCase, Bool.and_eq_true, beq_iff_eq] at h
      obtain ⟨v, r, rfl, hv⟩ := ih h.2
      exact ⟨c :: v, r, rfl, congrArg₂ List.cons h.1.symm hv⟩

theorem startsIgnoringCase_append_left (v w s : List Char) :
    startsIgnoringCase (v ++ w) s =
      (startsIgnoringCase v s && startsIgnoringCase w (s.drop v.length)) := by
  induction v generalizing s with
  | nil => rfl
  | cons c v ih =>
    cases s with
    | nil => rfl
    | cons d s => simp [startsIgnoringCase, ih, Bool.and_assoc]

end Case

end SchemaLint.Text

/-! ## Names -/

namespace SchemaLint.Identifier

open Text

variable {s : List Char}

theorem unquote_eq_self (htrim : Trimmed s)
    (h : ∀ c ∈ s.head?, isQuote c = true → s.tail.getLast? ≠ some c) : unquote s = s := by
  unfold unquote
  rw [htrim.trim_eq]
  cases s with
  | nil => rfl
  | cons c s =>
    refine if_neg fun hpair => ?_
    obtain ⟨hquote, hlast⟩ := Bool.and_eq_true_iff.mp hpair
    exact h c rfl hquote (beq_iff_eq.mp hlast)

theorem unquote_of_head (htrim : Trimmed s) (h : ∀ c ∈ s.head?, isQuote c = false) : unquote s = s :=
  unquote_eq_self htrim fun c hc hquote => absurd hquote (by simp [h c hc])

theorem unqualified_of_not_mem (h : '.' ∉ s) : unqualified s = s := by
  have hdots : ∀ c ∈ s, (c == '.') = false := by
    intro c hc
    rw [beq_eq_false_iff_ne]
    rintro rfl
    exact h hc
  rw [unqualified, segments, pieces_of_forall hdots]
  rfl

theorem unqualified_append_dot (s t : List Char) : unqualified (s ++ '.' :: t) = unqualified t := by
  obtain ⟨p, ps, hp⟩ := List.exists_cons_of_ne_nil (pieces_ne_nil (· == '.') t)
  rw [unqualified, unqualified, segments, segments, pieces_append_sep rfl, hp,
    List.getLast?_append_of_ne_nil _ (List.cons_ne_nil p ps)]

end SchemaLint.Identifier
