import SchemaLint.Proofs.Form
import SchemaLint.Proofs.Keyword
import SchemaLint.Proofs.Unicode.CodePoints
import SchemaLint.Sql.Footprint

/-!
# Words and names in statements

A form that asks for a keyword reads it in any case (`Cased.only_word`) and does not read a keyword
with other letters (`Apart`, `Cased.word_eq_nil`). A plain name (`PlainName`) is an identifier without
quotes and is read as it is written (`PlainName.only_name`); a `Name` is a plain name that is none of
the words a statement is cut at.
-/

namespace SchemaLint

open Form Text

/-! ## Words -/

section Words

variable {w s x r : List Char} {l c : Char}

theorem Form.only_letter (hl : isIdentChar l = true) (h : c.toLower = l.toLower) :
    Only (char (Unicode.sameFold l)) (c :: s) [c] s := by
  have hc : isIdentChar c = true := by rw [isIdentChar_of_toLower_eq h, hl]
  apply Only.char
  rw [Unicode.sameFold_of_lt (toNat_lt_of_isIdentChar hl) (toNat_lt_of_isIdentChar hc), h,
    beq_self_eq_true]

theorem Form.letter_eq_nil (hl : isIdentChar l = true) (hc : c.toNat < 128)
    (h : c.toLower ≠ l.toLower) : char (Unicode.sameFold l) (c :: s) = [] := by
  apply char_eq_nil
  rintro d ⟨⟩
  rw [Unicode.sameFold_of_lt (toNat_lt_of_isIdentChar hl) hc]
  exact beq_false_of_ne (Ne.symm h)

theorem Form.only_folded (hw : ∀ c ∈ w, isIdentChar c = true) (h : lower x = lower w) :
    Only (folded w) (x ++ r) x r := by
  induction w generalizing x with
  | nil =>
    obtain rfl : x = [] := by simpa [lower] using h
    exact rfl
  | cons l w ih =>
    cases x with
    | nil => exact absurd h (by simp [lower])
    | cons c x =>
      obtain ⟨hc, hx⟩ := List.cons.inj h
      exact (only_letter (hw l List.mem_cons_self) hc).append
        (ih (fun d hd => hw d (List.mem_cons_of_mem l hd)) hx)

/-- Two words that have different letters at some place. -/
def Differ (v w : List Char) : Prop :=
  ∃ p ∈ (lower v).zip (lower w), p.1 ≠ p.2

instance (v w : List Char) : Decidable (Differ v w) :=
  inferInstanceAs (Decidable (∃ p ∈ (lower v).zip (lower w), p.1 ≠ p.2))

/-- A word is not read where another letter than its own stands. -/
theorem Form.folded_eq_nil (hw : ∀ c ∈ w, isIdentChar c = true) (hs : ∀ c ∈ s, c.toNat < 128)
    (h : Differ w s) : folded w (s ++ r) = [] := by
  induction w generalizing s with
  | nil => simp [Differ, lower] at h
  | cons l w ih =>
    cases s with
    | nil => simp [Differ, lower] at h
    | cons c s =>
      have hl := hw l List.mem_cons_self
      by_cases hc : c.toLower = l.toLower
      · have htail : folded w (s ++ r) = [] :=
          ih (fun d hd => hw d (List.mem_cons_of_mem l hd))
            (fun d hd => hs d (List.mem_cons_of_mem c hd)) (by simpa [Differ, lower, hc] using h)
        exact (only_letter hl hc).append_eq_nil htail
      · exact append_eq_nil _ (letter_eq_nil hl (hs c List.mem_cons_self) hc)

theorem Form.folded_eq_nil_of_head (hw : ∀ c ∈ w, isIdentChar c = true) (hne : w ≠ [])
    (hs : ∀ c ∈ s.head?, c.toNat < 128 ∧ isIdentChar c = false) : folded w s = [] := by
  obtain ⟨l, w, rfl⟩ := List.exists_cons_of_ne_nil hne
  have hl := hw l List.mem_cons_self
  cases s with
  | nil => exact append_eq_nil _ (char_eq_nil (by simp))
  | cons c s =>
    obtain ⟨hlt, hident⟩ := hs c rfl
    refine append_eq_nil _ (letter_eq_nil hl hlt fun heq => ?_)
    rw [isIdentChar_of_toLower_eq heq, hl] at hident
    cases hident

/-- A word with blanks after it is not read where another word stands before a blank. -/
theorem Form.folded_blanks1_eq_nil (hw : ∀ c ∈ w, isIdentChar c = true)
    (hs : ∀ c ∈ s, isIdentChar c = true) (h : lower s ≠ lower w) :
    (folded w ++ blanks1) (s ++ ' ' :: r) = [] := by
  induction w generalizing s with
  | nil =>
    -- The word has come to its end, but the other one goes on where the blank should be.
    cases s with
    | nil => exact absurd rfl h
    | cons c s =>
      have hc : isBlank c = false :=
        (isPlain_of_isStop (isStop_of_isIdentChar (hs c List.mem_cons_self))).2
      have hblank : blanks1 (c :: s ++ ' ' :: r) = [] :=
        append_eq_nil _ (char_eq_nil (by simpa using hc))
      exact Only.append_eq_nil (f := folded []) (x := []) rfl hblank
  | cons l w ih =>
    have hl := hw l List.mem_cons_self
    rw [folded, append_assoc]
    cases s with
    | nil =>
      refine append_eq_nil _ (letter_eq_nil hl (by decide) fun heq => ?_)
      rw [← isIdentChar_of_toLower_eq heq] at hl
      exact absurd hl (by decide)
    | cons c s =>
      by_cases hc : c.toLower = l.toLower
      · have htail : (folded w ++ blanks1) (s ++ ' ' :: r) = [] :=
          ih (fun d hd => hw d (List.mem_cons_of_mem l hd))
            (fun d hd => hs d (List.mem_cons_of_mem c hd)) (by simpa [lower, hc] using h)
        exact (only_letter hl hc).append_eq_nil htail
      · exact append_eq_nil _
          (letter_eq_nil hl (toNat_lt_of_isIdentChar (hs c List.mem_cons_self)) hc)

end Words

/-- Two keywords that have different letters at some place, so that neither begins with the
other. -/
structure Apart (v w : String) : Prop where
  left : IsKeyword v
  right : IsKeyword w
  differ : Differ v.toList w.toList

instance (v w : String) : Decidable (Apart v w) :=
  decidable_of_iff (IsKeyword v ∧ IsKeyword w ∧ Differ v.toList w.toList)
    ⟨fun ⟨hv, hw, h⟩ => ⟨hv, hw, h⟩, fun h => ⟨h.left, h.right, h.differ⟩⟩

namespace Cased

variable {w v : String} (k : Cased w) {r : List Char}

theorem only_word (hw : IsKeyword w) : Only (word w) (k.text ++ r) k.text r :=
  only_folded hw.2 k.lower_eq

theorem word_eq_nil (h : Apart v w) : word v (k.text ++ r) = [] := by
  have hascii : ∀ c ∈ k.text, c.toNat < 128 :=
    fun c hc => toNat_lt_of_isIdentChar (k.isIdentChar_of_mem h.right c hc)
  refine folded_eq_nil h.left.2 hascii ?_
  rw [Differ, k.lower_eq]
  exact h.differ

end Cased

namespace Sql

/-! ## Names -/

/-- The words that a clause is cut at or that end it. -/
def breaks : List String :=
  ["AND", "OR", "BETWEEN", "WHERE", "GROUP", "ORDER", "LIMIT", "HAVING", "UNION"]

/-- The words that no plain name is: those that a clause is cut at, and those that are read for
themselves where a name may stand. -/
def keywords : List String :=
  breaks ++ ["NOT", "SET", "LOW_PRIORITY", "IGNORE"]

theorem isKeyword_keywords : ∀ w ∈ keywords, IsKeyword w := by
  decide

/-- A name of a table or column that is written without quotes. -/
structure Name where
  text : List Char
  head : ∃ c ∈ text.head?, isNameStart c = true
  chars : ∀ c ∈ text, (c.isAlphanum || c == '_') = true
  not_keyword : ∀ w ∈ keywords, lower text ≠ lower w.toList

theorem isIdentChar_of_nameChar {c : Char} (h : (c.isAlphanum || c == '_') = true) :
    isIdentChar c = true := by
  rw [isIdentChar, h, Bool.true_or]

theorem isWord_of_nameChar {c : Char} (h : (c.isAlphanum || c == '_') = true) :
    Unicode.isWord c = true := by
  rw [Unicode.isWord, if_pos (toNat_lt_of_isIdentChar (isIdentChar_of_nameChar h)), h]

theorem ascii_nameChar {c : Char} (h : (c.isAlphanum || c == '_') = true) :
    isIdentChar c = true ∧ isNameChar c = true ∧ c ≠ '.' := by
  refine ⟨isIdentChar_of_nameChar h, by rw [isNameChar, isWord_of_nameChar h, Bool.true_or], ?_⟩
  rintro rfl
  exact absurd h (by decide)

/-- Behind some of the blanks stands another blank, or what stands behind all of them. -/
theorem head?_of_mem_blanks {gap r x t : List Char} (hgap : ∀ c ∈ gap, isBlank c = true)
    (hr : ∀ c ∈ r.head?, isBlank c = false) (h : (x, t) ∈ blanks (gap ++ r)) :
    ∀ c ∈ t.head?, isBlank c = true ∨ c ∈ r.head? := by
  obtain ⟨hsplit, hblank⟩ := mem_run h
  intro c hc
  rcases List.append_eq_append_iff.mp hsplit with ⟨x', rfl, rfl⟩ | ⟨gap', rfl, rfl⟩
  · cases x' with
    | nil => exact .inr hc
    | cons d x' =>
      have hd := hr d rfl
      rw [hblank d (by simp)] at hd
      cases hd
  · cases gap' with
    | nil => exact .inr hc
    | cons d gap' =>
      obtain rfl : d = c := Option.some.inj hc
      exact .inl (hgap d (by simp))

/-- There is no dot where blanks stand before another character. -/
theorem dot_gap_eq_nil {gap r : List Char} (hgap : ∀ c ∈ gap, isBlank c = true)
    (hr : ∀ c ∈ r.head?, isBlank c = false ∧ c ≠ '.') : dot (gap ++ r) = [] := by
  rw [List.eq_nil_iff_forall_not_mem]
  rintro ⟨z, t⟩ hmem
  obtain ⟨z', y, t', hz', -, -⟩ := mem_append.mp hmem
  obtain ⟨x, p, u, hx, hp, -⟩ := mem_append.mp hz'
  obtain ⟨-, rfl⟩ := mem_exact.mp hp
  rcases head?_of_mem_blanks hgap (fun c hc => (hr c hc).1) hx '.' rfl with hblank | hdot
  · exact absurd hblank (by decide)
  · exact (hr '.' hdot).2 rfl

/-- There is no dot where a blank and no other blank stand before another character. -/
theorem dot_eq_nil {r : List Char} (hr : ∀ c ∈ r.head?, isBlank c = false ∧ c ≠ '.') :
    dot (' ' :: r) = [] :=
  dot_gap_eq_nil isBlank_space hr

/-- A single segment, in front of a blank and something other than a dot, is a whole name. -/
theorem only_star_segment {r : List Char} (hr : ∀ c ∈ r.head?, isBlank c = false ∧ c ≠ '.') :
    Only (star (dot ++ segment)) (' ' :: r) [] (' ' :: r) :=
  .star_nil (append_eq_nil _ (dot_eq_nil hr))

/-- Nothing of a name goes on at the beginning of the text. -/
def EndsName (r : List Char) : Prop :=
  ∀ c ∈ r.head?, isNameChar c = false ∧ c ≠ '\x60'

/-- A run of name characters that neither a backquote nor a dot follows is a whole name. -/
theorem only_name_of_chars {x r : List Char} (hne : x ≠ []) (hx : ∀ c ∈ x, isNameChar c = true)
    (hr : EndsName r) (hdot : dot r = []) : Only name (x ++ r) x r := by
  have hopen : tick (x ++ r) = [] := by
    refine char_eq_nil fun c hc => beq_eq_false_iff_ne.mpr ?_
    rw [List.head?_append_of_ne_nil _ hne] at hc
    rintro rfl
    exact absurd (hx _ (List.mem_of_head? hc)) (by decide)
  have hclose : tick r = [] := char_eq_nil fun c hc => beq_eq_false_iff_ne.mpr (hr c hc).2
  have hspan : Only (span1 isNameChar) (x ++ r) x r := .span1 hne hx fun c hc => (hr c hc).1
  have hsegment := ((Only.opt_nil hopen).append hspan).append (Only.opt_nil hclose)
  have hname := hsegment.append (Only.star_nil (append_eq_nil segment hdot))
  rwa [List.nil_append, List.append_nil, List.append_nil] at hname

/-! ## What names stand for -/

theorem fieldName_append_blank {gap : List Char} (hgap : ∀ c ∈ gap, isBlank c = true)
    (s : List Char) : fieldName (s ++ gap) = fieldName s := by
  rw [fieldName, fieldName, words_append_blank hgap]

/-- A text that is one segment of a name, and the name without quotes. -/
structure IsSegment (text name : List Char) : Prop where
  not_blank : ∀ c ∈ text, isBlank c = false
  ne_dot : ∀ c ∈ text, c ≠ '.'
  unquote_eq : Identifier.unquote text = name
  name_ne_dot : ∀ c ∈ name, c ≠ '.'

theorem segments_of_ne_dot {s : List Char} (h : ∀ c ∈ s, c ≠ '.') : Identifier.segments s = [s] :=
  pieces_of_forall fun c hc => beq_eq_false_iff_ne.mpr (h c hc)

namespace IsSegment

variable {text name : List Char} (h : IsSegment text name)

include h

theorem normalize_eq : Identifier.normalize text = name := by
  rw [Identifier.normalize, segments_of_ne_dot h.ne_dot, List.map_singleton, h.unquote_eq]
  exact List.intercalate_singleton

theorem targetName_eq : targetName text = String.ofList name := by
  rw [targetName, h.normalize_eq]

theorem fieldName_eq : fieldName text = String.ofList name := by
  have hwords : (words text).flatten = text := by
    rw [flatten_words, List.filter_eq_self]
    exact fun c hc => by rw [h.not_blank c hc, Bool.not_false]
  rw [fieldName, hwords, h.normalize_eq, Identifier.unqualified, segments_of_ne_dot h.name_ne_dot]
  rfl

/-- A column is called what it is written, whatever blanks stand after it. -/
theorem fieldName_append {gap : List Char} (hgap : ∀ c ∈ gap, isBlank c = true) :
    fieldName (text ++ gap) = String.ofList name := by
  rw [fieldName_append_blank hgap, h.fieldName_eq]

end IsSegment

/-! ## Plain names -/

/-- A name as it is written without quotes, whatever word it is. -/
structure PlainName where
  text : List Char
  head : ∃ c ∈ text.head?, isNameStart c = true
  chars : ∀ c ∈ text, (c.isAlphanum || c == '_') = true

namespace PlainName

variable (n : PlainName) {r : List Char}

theorem ne_nil : n.text ≠ [] := by
  obtain ⟨c, hc, -⟩ := n.head
  intro hnil
  rw [hnil] at hc
  cases hc

theorem isIdentChar_of_mem : ∀ c ∈ n.text, isIdentChar c = true :=
  fun c hc => (ascii_nameChar (n.chars c hc)).1

theorem ne_dot_of_mem : ∀ c ∈ n.text, c ≠ '.' :=
  fun c hc => (ascii_nameChar (n.chars c hc)).2.2

theorem isBlank_of_mem : ∀ c ∈ n.text, isBlank c = false :=
  fun c hc => (isPlain_of_isStop (isStop_of_isIdentChar (n.isIdentChar_of_mem c hc))).2

theorem isPlain_of_mem : ∀ c ∈ n.text, Nesting.isPlain c = true :=
  fun c hc => isPlain_of_isIdentChar (n.isIdentChar_of_mem c hc)

theorem phrase {ws : List String} (h : ∀ w ∈ ws, lower n.text ≠ lower w.toList) : Phrase ws n.text :=
  .of_word n.isIdentChar_of_mem n.ne_nil h

theorem head?_append (s : List Char) : ∀ c ∈ (n.text ++ s).head?, isBlank c = false := by
  intro c hc
  rw [List.head?_append_of_ne_nil _ n.ne_nil] at hc
  exact n.isBlank_of_mem c (List.mem_of_head? hc)

theorem balanced : Nesting.Balanced n.text :=
  .of_plain n.isPlain_of_mem

theorem hides {sep : Char} (hsep : isIdentChar sep = false) : Hides (· == sep) n.text := by
  refine .of_forall fun c hc => beq_eq_false_iff_ne.mpr ?_
  rintro rfl
  rw [n.isIdentChar_of_mem c hc] at hsep
  cases hsep

theorem tick_eq_nil (s : List Char) : tick (n.text ++ s) = [] := by
  refine char_eq_nil fun c hc => ?_
  rw [List.head?_append_of_ne_nil _ n.ne_nil] at hc
  rw [beq_eq_false_iff_ne]
  rintro rfl
  exact absurd (n.isIdentChar_of_mem _ (List.mem_of_head? hc)) (by decide)

theorem only_span1 (hr : ∀ c ∈ r.head?, isNameChar c = false) :
    Only (span1 isNameChar) (n.text ++ r) n.text r :=
  .span1 n.ne_nil (fun c hc => (ascii_nameChar (n.chars c hc)).2.1) hr

/-- A name in front of a blank is read as it is written, and in no other way. -/
theorem only_name (hr : ∀ c ∈ r.head?, isBlank c = false ∧ c ≠ '.') :
    Only name (n.text ++ ' ' :: r) n.text (' ' :: r) :=
  only_name_of_chars n.ne_nil (fun c hc => (ascii_nameChar (n.chars c hc)).2.1)
    (by rintro c ⟨⟩; decide) (dot_eq_nil hr)

theorem isSegment : IsSegment n.text n.text := by
  obtain ⟨c, x, hcons⟩ := List.exists_cons_of_ne_nil n.ne_nil
  have hc : isQuote c = false := by
    have := n.isPlain_of_mem c (by rw [hcons]; exact List.mem_cons_self)
    simp only [Nesting.isPlain, Bool.and_eq_true, Bool.not_eq_true'] at this
    exact this.1.1
  have hphrase : Phrase [] n.text := n.phrase (by simp)
  have hunquote : Identifier.unquote n.text = n.text := by
    unfold Identifier.unquote
    rw [hphrase.trimmed.trim_eq, hcons]
    simp [hc]
  exact ⟨n.isBlank_of_mem, n.ne_dot_of_mem, hunquote, n.ne_dot_of_mem⟩

end PlainName

namespace Name

variable (n : Name) {r : List Char}

/-- The name, whatever word it is. -/
def plain : PlainName :=
  ⟨n.text, n.head, n.chars⟩

theorem ne_nil : n.text ≠ [] :=
  n.plain.ne_nil

theorem isIdentChar_of_mem : ∀ c ∈ n.text, isIdentChar c = true :=
  n.plain.isIdentChar_of_mem

theorem phrase {ws : List String} (hws : ws ⊆ keywords) : Phrase ws n.text :=
  n.plain.phrase fun w hw => n.not_keyword w (hws hw)

theorem head?_append (s : List Char) : ∀ c ∈ (n.text ++ s).head?, isBlank c = false :=
  n.plain.head?_append s

theorem balanced : Nesting.Balanced n.text :=
  n.plain.balanced

theorem hides {sep : Char} (hsep : isIdentChar sep = false) : Hides (· == sep) n.text :=
  n.plain.hides hsep

theorem only_name (hr : ∀ c ∈ r.head?, isBlank c = false ∧ c ≠ '.') :
    Only name (n.text ++ ' ' :: r) n.text (' ' :: r) :=
  n.plain.only_name hr

def toString (n : Name) : String :=
  String.ofList n.text

theorem targetName_text : targetName n.text = n.toString :=
  n.plain.isSegment.targetName_eq

theorem fieldName_append {gap : List Char} (hgap : ∀ c ∈ gap, isBlank c = true) :
    fieldName (n.text ++ gap) = n.toString :=
  n.plain.isSegment.fieldName_append hgap

theorem fieldName_text : fieldName n.text = n.toString :=
  n.plain.isSegment.fieldName_eq

end Name

end Sql

end SchemaLint
