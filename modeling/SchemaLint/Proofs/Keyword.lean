import SchemaLint.Keyword
import SchemaLint.Proofs.Nesting.Cut
import SchemaLint.Proofs.Unicode.Fold
import SchemaLint.Statement

/-!
# Where keywords stand

A text lacks certain keywords (`Lacks`) when it is made of whole words other than these, of signs in
front of a word, and of pieces that show no word outside quotes and brackets. Nothing that looks for
these keywords or for the end of the statement (`PlaceTest.Within`) finds a place in such a text
(`parts_append_of_lacks`), so the first place of a longer text is the keyword that follows
(`parts_append_keyword`, `cutAtKeyword?_append`).
-/

namespace SchemaLint

open Nesting Text

/-! ## Words up to case -/

section Words

variable {w s : List Char}

theorem toNat_lt_of_isIdentChar {c : Char} (h : isIdentChar c = true) : c.toNat < 128 := by
  simp only [isIdentChar, Char.isAlphanum, Bool.or_eq_true, beq_iff_eq] at h
  rcases h with ((h | h) | rfl) | rfl
  · exact toNat_lt_of_isAlpha h
  · have hle : c.val ≤ '9'.val := of_decide_eq_true (Bool.and_eq_true_iff.mp h).2
    exact Nat.lt_of_le_of_lt hle (by decide)
  all_goals decide

theorem isIdentChar_toLower (c : Char) : isIdentChar c.toLower = isIdentChar c :=
  Unicode.apply_toLower (by decide +kernel) c

theorem isIdentChar_of_toLower_eq {c d : Char} (h : c.toLower = d.toLower) :
    isIdentChar c = isIdentChar d := by
  rw [← isIdentChar_toLower c, h, isIdentChar_toLower]

theorem isIdentChar_of_lower_eq (hw : ∀ c ∈ w, isIdentChar c = true)
    (h : lower s = lower w) : ∀ c ∈ s, isIdentChar c = true := by
  intro c hc
  have hmem : c.toLower ∈ lower w := by
    rw [← h]
    exact List.mem_map_of_mem hc
  obtain ⟨d, hd, heq⟩ := List.mem_map.mp hmem
  rw [← isIdentChar_of_toLower_eq heq]
  exact hw d hd

/-- A word that stands at the start of another word and is not continued is that word. -/
theorem lower_eq_of_startsIgnoringCase {r : List Char} (hw : ∀ c ∈ w, isIdentChar c = true)
    (hs : ∀ c ∈ s, isIdentChar c = true) (hr : ∀ c ∈ r.head?, isIdentChar c = false)
    (h : startsIgnoringCase w (s ++ r) = true)
    (hnext : ((s ++ r).drop w.length).head?.any isIdentChar = false) : lower s = lower w := by
  induction w generalizing s with
  | nil =>
    cases s with
    | nil => rfl
    | cons c s => simp [hs c List.mem_cons_self] at hnext
  | cons l w ih =>
    have hl : isIdentChar l = true := hw l List.mem_cons_self
    cases s with
    | nil =>
      cases r with
      | nil => cases h
      | cons c r =>
        simp only [List.nil_append, startsIgnoringCase, Bool.and_eq_true, beq_iff_eq] at h
        rw [isIdentChar_of_toLower_eq h.1, hr c rfl] at hl
        cases hl
    | cons c s =>
      simp only [List.cons_append, startsIgnoringCase, Bool.and_eq_true, beq_iff_eq] at h
      have htail := ih (fun d hd => hw d (List.mem_cons_of_mem l hd))
        (fun d hd => hs d (List.mem_cons_of_mem c hd)) h.2 hnext
      exact congrArg₂ List.cons h.1.symm htail

end Words

/-- A word as it is written, in any case. -/
structure Cased (w : String) where
  text : List Char
  lower_eq : lower text = lower w.toList

/-- A keyword is not empty and has characters of identifiers only. -/
def IsKeyword (w : String) : Prop :=
  w.toList ≠ [] ∧ ∀ c ∈ w.toList, isIdentChar c = true

instance (w : String) : Decidable (IsKeyword w) :=
  decidable_of_iff (w.toList ≠ [] ∧ w.toList.all isIdentChar = true) (by simp [IsKeyword])

namespace Cased

variable {w : String} (k : Cased w)

theorem isIdentChar_of_mem (hw : IsKeyword w) : ∀ c ∈ k.text, isIdentChar c = true :=
  isIdentChar_of_lower_eq hw.2 k.lower_eq

theorem length_text : k.text.length = w.length := by
  rw [length_eq_of_lower k.lower_eq, String.length_toList]

theorem text_ne_nil (hw : IsKeyword w) : k.text ≠ [] := by
  rw [← List.length_pos_iff, k.length_text, ← String.length_toList]
  exact List.length_pos_of_ne_nil hw.1

/-- A keyword stands where it is written with no word on either side. -/
theorem isKeywordAt_text {before : Option Char} {r : List Char}
    (hbefore : ∀ c ∈ before, isIdentChar c = false) (hr : ∀ c ∈ r.head?, isIdentChar c = false) :
    isKeywordAt w before (k.text ++ r) = true := by
  have hb : before.any isIdentChar = false := by cases before <;> simp_all
  have ha : r.head?.any isIdentChar = false := by cases r <;> simp_all
  rw [isKeywordAt, startsIgnoringCase_append k.lower_eq, drop_of_lower_eq k.lower_eq, hb, ha]
  rfl

end Cased

/-! ## Tests for keywords -/

/-- A test that passes only where one of some keywords stands or the statement ends, and that asks
of the character before only whether it continues a word. -/
structure PlaceTest.Within (test : PlaceTest) (ws : List String) : Prop where
  isKeyword : ∀ w ∈ ws, IsKeyword w
  pass : ∀ before rest, test before rest = true →
    (∃ w ∈ ws, isKeywordAt w before rest = true) ∨ statementEndsAt before rest = true
  before : ∀ b b' rest, b.any isIdentChar = b'.any isIdentChar → test b rest = test b' rest

theorem isKeywordAt_before (w : String) {b b' : Option Char} (rest : List Char)
    (h : b.any isIdentChar = b'.any isIdentChar) : isKeywordAt w b rest = isKeywordAt w b' rest := by
  rw [isKeywordAt, isKeywordAt, h]

theorem within_isKeywordAt {w : String} (hw : IsKeyword w) : (isKeywordAt w).Within [w] where
  isKeyword := by simpa using hw
  pass _ _ h := .inl ⟨w, List.mem_singleton_self w, h⟩
  before _ _ rest h := isKeywordAt_before w rest h

theorem within_any {ws : List String} (hws : ∀ w ∈ ws, IsKeyword w) :
    PlaceTest.Within (fun before rest => ws.any fun w => isKeywordAt w before rest) ws where
  isKeyword := hws
  pass _ _ h := .inl (List.any_eq_true.mp h)
  before _ _ rest h := by simp only [isKeywordAt_before _ rest h]

theorem within_statementEndsAt : statementEndsAt.Within [] where
  isKeyword := by simp
  pass _ _ h := .inr h
  before _ _ _ _ := rfl

namespace PlaceTest.Within

variable {test : PlaceTest} {ws : List String} {b : Option Char} {c : Char} {r : List Char}

/-- A test that passes somewhere sees a keyword, or a mark that ends the statement. -/
theorem of_pass (h : test.Within ws) (hpass : test b (c :: r) = true) :
    (∃ w ∈ ws, isIdentChar c = true ∧ isKeywordAt w b (c :: r) = true) ∨
      statementEndsAt b (c :: r) = true := by
  rcases h.pass b (c :: r) hpass with ⟨w, hw, hat⟩ | hend
  · refine .inl ⟨w, hw, ?_, hat⟩
    obtain ⟨hne, hident⟩ := h.isKeyword w hw
    obtain ⟨l, w', hcons⟩ := List.exists_cons_of_ne_nil hne
    have hstart : startsIgnoringCase w.toList (c :: r) = true :=
      (Bool.and_eq_true_iff.mp (Bool.and_eq_true_iff.mp hat).1).1
    rw [hcons, startsIgnoringCase, Bool.and_eq_true, beq_iff_eq] at hstart
    rw [← isIdentChar_of_toLower_eq hstart.1]
    exact hident l (by rw [hcons]; exact List.mem_cons_self)
  · exact .inr hend

end PlaceTest.Within

/-- A character that a keyword or the end of a statement begins with. -/
def isStop (c : Char) : Bool :=
  isIdentChar c || c == ';' || c == '#' || c == '-'

theorem isPlain_of_isStop {c : Char} (h : isStop c = true) :
    isPlain c = true ∧ isBlank c = false := by
  have hlt : c.toNat < 128 := by
    simp only [isStop, Bool.or_eq_true, beq_iff_eq] at h
    rcases h with ((h | rfl) | rfl) | rfl
    · exact toNat_lt_of_isIdentChar h
    all_goals decide
  exact forall_ascii (P := fun c => isStop c = true → isPlain c = true ∧ isBlank c = false)
    (by decide +kernel) hlt h

theorem isStop_of_isIdentChar {c : Char} (h : isIdentChar c = true) : isStop c = true := by
  simp [isStop, h]

theorem isPlain_of_isIdentChar {c : Char} (h : isIdentChar c = true) : isPlain c = true :=
  (isPlain_of_isStop (isStop_of_isIdentChar h)).1

theorem isStop_of_isBlank {c : Char} (h : isBlank c = true) : isStop c = false := by
  rw [← Bool.not_eq_true]
  intro hstop
  rw [(isPlain_of_isStop hstop).2] at h
  cases h

theorem isIdentChar_of_isBlank {c : Char} (h : isBlank c = true) : isIdentChar c = false := by
  rw [← Bool.not_eq_true]
  intro hident
  have := isStop_of_isIdentChar hident
  rw [isStop_of_isBlank h] at this
  cases this

theorem eq_of_statementEndsAt {b : Option Char} {c : Char} {r : List Char}
    (h : statementEndsAt b (c :: r) = true) :
    c = ';' ∨ c = '#' ∨ c = '-' ∧ r.head? = some '-' := by
  simp only [statementEndsAt, startsComment, List.head?_cons, Bool.or_eq_true, beq_iff_eq] at h
  rcases h with h | h
  · exact .inl (Option.some.inj h)
  · split at h
    · next heq => exact .inr (.inl (List.cons.inj heq).1)
    · next heq =>
      obtain ⟨rfl, rfl⟩ := List.cons.inj heq
      exact .inr (.inr ⟨rfl, rfl⟩)
    · cases h

theorem PlaceTest.Within.needs {test : PlaceTest} {ws : List String} (h : test.Within ws) :
    test.Needs isStop := by
  intro b c r hpass
  rcases h.of_pass hpass with ⟨-, -, hc, -⟩ | hend
  · simp [isStop, hc]
  · rcases eq_of_statementEndsAt hend with rfl | rfl | ⟨rfl, -⟩ <;> decide

theorem PlaceTest.Within.inside {test : PlaceTest} {ws : List String} (h : test.Within ws)
    {b c : Char} (hb : isIdentChar b = true) (hc : isIdentChar c = true) (r : List Char) :
    test (some b) (c :: r) = false := by
  rw [← Bool.not_eq_true]
  intro hpass
  rcases h.of_pass hpass with ⟨w, -, -, hat⟩ | hend
  · simp [isKeywordAt, hb] at hat
  · rcases eq_of_statementEndsAt hend with rfl | rfl | ⟨rfl, -⟩ <;> exact absurd hc (by decide)

/-- A minus in front of a word begins no comment. -/
theorem PlaceTest.Within.sign {test : PlaceTest} {ws : List String} (h : test.Within ws) {c : Char}
    (hc : isIdentChar c = true) (b : Option Char) (r : List Char) :
    test b ('-' :: c :: r) = false := by
  rw [← Bool.not_eq_true]
  intro hpass
  rcases h.of_pass hpass with ⟨-, -, hident, -⟩ | hend
  · exact absurd hident (by decide)
  · rcases eq_of_statementEndsAt hend with heq | heq | ⟨-, heq⟩
    · exact absurd heq (by decide)
    · exact absurd heq (by decide)
    · obtain rfl : c = '-' := Option.some.inj heq
      exact absurd hc (by decide)

/-! ## Texts that lack keywords -/

/-- A text of whole words that are none of some keywords, of signs in front of words, and of pieces
that show no words. -/
inductive Lacks (ws : List String) : List Char → Prop
  | nil : Lacks ws []
  | word {x r : List Char} (ident : ∀ c ∈ x, isIdentChar c = true)
      (ne : ∀ w ∈ ws, lower x ≠ lower w.toList) (ends : ∀ c ∈ r.head?, isIdentChar c = false)
      (rest : Lacks ws r) : Lacks ws (x ++ r)
  | sign {c : Char} {r : List Char} (next : isIdentChar c = true) (rest : Lacks ws (c :: r)) :
      Lacks ws ('-' :: c :: r)
  | piece {x r : List Char} (balanced : Balanced x) (hides : Hides isStop x) (rest : Lacks ws r) :
      Lacks ws (x ++ r)

namespace Lacks

variable {ws : List String} {s t : List Char}

theorem balanced (h : Lacks ws s) : Balanced s := by
  induction h with
  | nil => exact .nil
  | word ident _ _ _ ih =>
    exact (Balanced.of_plain fun c hc => isPlain_of_isIdentChar (ident c hc)).append ih
  | sign _ _ ih => exact .cons (by decide) ih
  | piece balanced _ _ ih => exact balanced.append ih

theorem mono {ws' : List String} (h : Lacks ws s) (hsub : ws' ⊆ ws) : Lacks ws' s := by
  induction h with
  | nil => exact .nil
  | word ident ne ends _ ih => exact .word ident (fun w hw => ne w (hsub hw)) ends ih
  | sign next _ ih => exact .sign next ih
  | piece balanced hides _ ih => exact .piece balanced hides ih

/-- Texts may follow one another where no word runs on. -/
theorem append (hs : Lacks ws s) (ht : Lacks ws t) (hhead : ∀ c ∈ t.head?, isIdentChar c = false) :
    Lacks ws (s ++ t) := by
  induction hs with
  | nil => exact ht
  | @word x r ident ne ends _ ih =>
    rw [List.append_assoc]
    refine .word ident ne ?_ ih
    cases r with
    | nil => exact hhead
    | cons c r => exact ends
  | sign next _ ih => exact .sign next ih
  | piece balanced hides _ ih =>
    rw [List.append_assoc]
    exact .piece balanced hides ih

theorem singleWord {x : List Char} (ident : ∀ c ∈ x, isIdentChar c = true)
    (ne : ∀ w ∈ ws, lower x ≠ lower w.toList) : Lacks ws x := by
  rw [← List.append_nil x]
  exact .word ident ne (by simp) .nil

theorem symbols {x : List Char} (h : ∀ c ∈ x, isPlain c = true ∧ isStop c = false)
    (rest : Lacks ws s) : Lacks ws (x ++ s) :=
  .piece (.of_plain fun c hc => (h c hc).1) (.of_forall fun c hc => (h c hc).2) rest

theorem blank {x : List Char} (h : ∀ c ∈ x, isBlank c = true) (rest : Lacks ws s) :
    Lacks ws (x ++ s) :=
  symbols (fun c hc => ⟨isPlain_of_isBlank (h c hc), isStop_of_isBlank (h c hc)⟩) rest

theorem append_blank (h : Lacks ws s) {g : List Char} (hg : ∀ c ∈ g, isBlank c = true) :
    Lacks ws (s ++ g) := by
  have hblank : Lacks ws g := by
    rw [← List.append_nil g]
    exact .blank hg .nil
  exact h.append hblank fun c hc => isIdentChar_of_isBlank (hg c (List.mem_of_head? hc))

theorem quoted {q : Char} {x : List Char} (hq : isQuote q = true) (hx : StaysQuoted q x)
    (rest : Lacks ws s) : Lacks ws (q :: (x ++ [q]) ++ s) :=
  .piece (.of_staysQuoted hq hx) (.of_staysQuoted hq hx) rest

theorem bracketed {x : List Char} (hx : Balanced x) (rest : Lacks ws s) :
    Lacks ws ('(' :: (x ++ [')']) ++ s) :=
  .piece (.bracketed rfl rfl hx) (.bracketed rfl rfl hx (by decide) (by decide)) rest

end Lacks

/-! ## Phrases -/

/-- A text that stands between blanks by itself and lacks some keywords. -/
structure Phrase (ws : List String) (s : List Char) : Prop where
  lacks : Lacks ws s
  trimmed : Trimmed s
  ne_nil : s ≠ []

namespace Phrase

variable {ws ws' : List String} {s t x : List Char}

theorem mono (h : Phrase ws s) (hsub : ws' ⊆ ws) : Phrase ws' s :=
  ⟨h.lacks.mono hsub, h.trimmed, h.ne_nil⟩

theorem spaced (hs : Phrase ws s) (ht : Phrase ws t) : Phrase ws (s ++ ' ' :: t) := by
  have hblank : Lacks ws (' ' :: t) := .blank (x := [' ']) isBlank_space ht.lacks
  exact ⟨hs.lacks.append hblank (by rintro d ⟨⟩; decide),
    hs.trimmed.spaced ht.trimmed hs.ne_nil ht.ne_nil, by simp⟩

theorem of_word (ident : ∀ c ∈ s, isIdentChar c = true) (hne : s ≠ [])
    (ne : ∀ w ∈ ws, lower s ≠ lower w.toList) : Phrase ws s := by
  have hblank : ∀ c ∈ s, isBlank c = false :=
    fun c hc => (isPlain_of_isStop (isStop_of_isIdentChar (ident c hc))).2
  exact ⟨.singleWord ident ne, ⟨fun c hc => hblank c (List.mem_of_head? hc),
    fun c hc => hblank c (List.mem_of_getLast? hc)⟩, hne⟩

theorem of_bracketed (hx : Balanced x) : Phrase ws ('(' :: (x ++ [')'])) := by
  refine ⟨?_, ⟨?_, ?_⟩, List.cons_ne_nil _ _⟩
  · have hlacks : Lacks ws ('(' :: (x ++ [')']) ++ []) := .bracketed hx .nil
    rwa [List.append_nil] at hlacks
  · rintro c ⟨⟩
    decide
  · intro c hc
    obtain rfl : ')' = c := by simpa [List.getLast?_cons] using hc
    decide

end Phrase

theorem Cased.phrase {w : String} (k : Cased w) {ws : List String} (hw : IsKeyword w)
    (ne : ∀ v ∈ ws, lower w.toList ≠ lower v.toList) : Phrase ws k.text :=
  .of_word (k.isIdentChar_of_mem hw) (k.text_ne_nil hw) (by rwa [k.lower_eq])

/-! ## Cutting at keywords -/

section Cuts

variable {test : PlaceTest} {ws : List String} {x s : List Char}

theorem parts_cons_plain {c : Char} (hc : isPlain c = true) (before : Option Char)
    (h : test before (c :: s) = false) :
    start.parts test before (c :: s) = consHead c (start.parts test (some c) s) := by
  rw [Nesting.parts, h, Bool.and_false, if_neg Bool.false_ne_true, start_eq, next_plain 0 hc]

/-- A balanced text in which no place passes stays in front of the first part of what follows. -/
theorem parts_append_balanced (hx : Balanced x) (t : List Char) (before : Option Char)
    (h : ∀ a c b, x = a ++ c :: b → test (a.getLast?.or before) (c :: (b ++ t)) = false) :
    start.parts test before (x ++ t) =
      x.foldr consHead (start.parts test (x.getLast?.or before) t) := by
  rw [parts_append t start before fun a c b hsplit _ => h a c b hsplit, start_eq, hx.after_eq]

/-- No place inside of a word passes, and none at its start unless the word is asked for. -/
theorem PlaceTest.Within.word (htest : test.Within ws) (ident : ∀ c ∈ x, isIdentChar c = true)
    (ne : ∀ w ∈ ws, lower x ≠ lower w.toList) {t : List Char}
    (ht : ∀ c ∈ t.head?, isIdentChar c = false) (before : Option Char) :
    ∀ a c b, x = a ++ c :: b → test (a.getLast?.or before) (c :: (b ++ t)) = false := by
  rintro a c b rfl
  have hc : isIdentChar c = true := ident c (by simp)
  rw [← Bool.not_eq_true]
  intro hpass
  -- At the start of the word the whole word would have to be a keyword; further on, the character
  -- before continues a word.
  rcases List.eq_nil_or_concat a with rfl | ⟨a, d, rfl⟩
  · rcases htest.of_pass hpass with ⟨w, hw, -, hat⟩ | hend
    · simp only [isKeywordAt, Bool.and_eq_true, Bool.not_eq_true'] at hat
      refine ne w hw (lower_eq_of_startsIgnoringCase (htest.isKeyword w hw).2 ident ht hat.1.1 ?_)
      rw [String.length_toList]
      exact hat.2
    · rcases eq_of_statementEndsAt hend with rfl | rfl | ⟨rfl, -⟩ <;> exact absurd hc (by decide)
  · have hd : isIdentChar d = true := ident d (by simp)
    rw [List.concat_eq_append, List.getLast?_concat, Option.some_or] at hpass
    rw [htest.inside hd hc] at hpass
    cases hpass

/-- No place of a text that lacks the keywords of a test passes, whatever follows the text. -/
theorem parts_append_of_lacks (htest : test.Within ws) (hs : Lacks ws s) {t : List Char}
    (ht : ∀ c ∈ t.head?, isIdentChar c = false) (before : Option Char) :
    start.parts test before (s ++ t) =
      s.foldr consHead (start.parts test (s.getLast?.or before) t) := by
  -- One piece after the other is passed over; what a place looks back on is the end of the piece
  -- before it.
  induction hs generalizing before with
  | nil => simp
  | @word x r ident ne ends _ ih =>
    have hnext : ∀ c ∈ (r ++ t).head?, isIdentChar c = false := by
      cases r with
      | nil => exact ht
      | cons c r => exact ends
    have hx : Balanced x := .of_plain fun c hc => isPlain_of_isIdentChar (ident c hc)
    rw [List.append_assoc, parts_append_balanced hx _ _ (htest.word ident ne hnext before), ih,
      List.foldr_append, List.getLast?_append, Option.or_assoc]
  | @sign c r next _ ih =>
    have hsign : test before ('-' :: (c :: r ++ t)) = false := htest.sign next before (r ++ t)
    rw [List.cons_append, parts_cons_plain (by decide) before hsign, ih, List.getLast?_cons_cons,
      List.getLast?_cons, Option.some_or, Option.some_or]
    rfl
  | @piece x r balanced hides _ ih =>
    rw [List.append_assoc, parts_append_of_hides htest.needs hides, start_eq, balanced.after_eq,
      ← start_eq, ih, List.foldr_append, List.getLast?_append, Option.or_assoc]

theorem parts_of_lacks (htest : test.Within ws) (hs : Lacks ws s) : parts test s = [s] := by
  have h := parts_append_of_lacks (t := []) htest hs (by simp) none
  rw [List.append_nil, Nesting.parts, foldr_consHead, List.append_nil] at h
  exact h

theorem firstCut?_of_lacks (htest : test.Within ws) (hs : Lacks ws s) :
    firstCut? test s = none := by
  rw [firstCut?, parts_of_lacks htest hs]

theorem hasKeyword_of_lacks {w : String} (hw : IsKeyword w) (hs : Lacks [w] s) :
    hasKeyword w s = false := by
  rw [hasKeyword, firstCut?_of_lacks (within_isKeywordAt hw) hs]
  rfl

/-- A blank stays in front of the first part, and the next place looks back on nothing. -/
theorem parts_cons_blank (htest : test.Within ws) {b : Char} (hb : isBlank b = true)
    (before : Option Char) (s : List Char) :
    start.parts test before (b :: s) = consHead b (parts test s) := by
  have hnot : test before (b :: s) = false := by
    rw [← Bool.not_eq_true]
    intro hpass
    have := htest.needs _ _ _ hpass
    rw [isStop_of_isBlank hb] at this
    cases this
  have hbefore : start.parts test (some b) s = start.parts test none s := by
    cases s with
    | nil => rfl
    | cons c s =>
      rw [Nesting.parts, Nesting.parts, htest.before (some b) none]
      simp [isIdentChar_of_isBlank hb]
  rw [parts_cons_plain (isPlain_of_isBlank hb) before hnot, hbefore]
  rfl

/-- Behind a character of a word no place inside of the word passes. -/
theorem PlaceTest.Within.inside_word (htest : test.Within ws) {d : Char}
    (hd : isIdentChar d = true) (hx : ∀ c ∈ x, isIdentChar c = true) (r : List Char) :
    ∀ a c b, x = a ++ c :: b → test (a.getLast?.or (some d)) (c :: (b ++ r)) = false := by
  rintro a c b rfl
  have hc : isIdentChar c = true := hx c (by simp)
  rcases List.eq_nil_or_concat a with rfl | ⟨a, e, rfl⟩
  · exact htest.inside hd hc _
  · rw [List.concat_eq_append, List.getLast?_concat, Option.some_or]
    exact htest.inside (hx e (by simp)) hc _

theorem PlaceTest.Within.parts_inside (htest : test.Within ws) {d : Char}
    (hd : isIdentChar d = true) (hx : ∀ c ∈ x, isIdentChar c = true) (r : List Char) :
    start.parts test (some d) (x ++ ' ' :: r) = (x ++ [' ']).foldr consHead (parts test r) := by
  have hplain : ∀ c ∈ x, isPlain c = true := fun c hc => isPlain_of_isIdentChar (hx c hc)
  rw [parts_append_balanced (.of_plain hplain) _ _ (htest.inside_word hd hx _),
    parts_cons_blank htest (by decide), List.foldr_append]
  rfl

theorem statementOf_phrase (hs : Phrase [] s) : statementOf s = s := by
  unfold statementOf
  rw [hs.trimmed.trim_eq, firstCut?_of_lacks within_statementEndsAt hs.lacks]
  exact trimEnd_of_last hs.trimmed.last

variable {w : String}

/-- A keyword between blanks, after a text that lacks what a test looks for, begins the second
part. -/
theorem parts_append_keyword (htest : test.Within ws) (hw : IsKeyword w) (hs : Lacks ws s)
    (hpass : ∀ rest, isKeywordAt w none rest = true → test none rest = true) (k : Cased w)
    (r : List Char) :
    parts test (s ++ ' ' :: (k.text ++ ' ' :: r)) =
      (s ++ [' ']) :: (k.text ++ [' ']).foldr consHead (parts test r) := by
  -- The test passes in front of the keyword, and then not again before its last letter is read.
  obtain ⟨c, x, hk⟩ := List.exists_cons_of_ne_nil (k.text_ne_nil hw)
  have hident : ∀ d ∈ c :: x, isIdentChar d = true := by
    rw [← hk]
    exact k.isIdentChar_of_mem hw
  have hplain : isPlain c = true := isPlain_of_isIdentChar (hident c List.mem_cons_self)
  have hat : test none (c :: (x ++ ' ' :: r)) = true := by
    apply hpass
    rw [← List.cons_append, ← hk]
    exact k.isKeywordAt_text (by simp) (by rintro d ⟨⟩; decide)
  have hhere : parts test (c :: (x ++ ' ' :: r)) =
      [] :: (c :: x ++ [' ']).foldr consHead (parts test r) := by
    have htop : ((start.mark c).isTop && test none (c :: (x ++ ' ' :: r))) = true := by
      rw [hat, start_eq, mark_plain 0 hplain]
      rfl
    unfold SchemaLint.parts
    rw [Nesting.parts, htop, if_pos rfl, start_eq, next_plain 0 hplain, ← start_eq,
      htest.parts_inside (hident c List.mem_cons_self)
        (fun d hd => hident d (List.mem_cons_of_mem c hd))]
    rfl
  unfold SchemaLint.parts
  rw [parts_append_of_lacks htest hs (by rintro d ⟨⟩; decide), parts_cons_blank htest (by decide),
    hk, List.cons_append, hhere, consHead, foldr_consHead]
  rfl

theorem cutAtKeyword?_append (hw : IsKeyword w) (hs : Lacks [w] s) (k : Cased w) (r : List Char) :
    cutAtKeyword? w (s ++ ' ' :: (k.text ++ ' ' :: r)) = some (s ++ [' '], ' ' :: r) := by
  have hparts := parts_append_keyword (within_isKeywordAt hw) hw hs (fun _ h => h) k r
  have hflat : (parts (isKeywordAt w) r).flatten = r := flatten_parts _ _
  obtain ⟨p, ps, hp⟩ := List.exists_cons_of_ne_nil (parts_ne_nil (isKeywordAt w) r)
  rw [hp, List.flatten_cons] at hflat
  rw [hp, foldr_consHead] at hparts
  have hcut : firstCut? (isKeywordAt w) (s ++ ' ' :: (k.text ++ ' ' :: r)) =
      some (s ++ [' '], k.text ++ ' ' :: r) := by
    rw [firstCut?, hparts]
    simp [← hflat]
  have hdrop : (k.text ++ ' ' :: r).drop w.length = ' ' :: r := by
    rw [← k.length_text, List.drop_left]
  rw [cutAtKeyword?, hcut]
  simp only [Option.map_some, hdrop]

end Cuts

end SchemaLint
