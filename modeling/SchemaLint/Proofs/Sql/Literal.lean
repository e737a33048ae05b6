import SchemaLint.Proofs.Shell.Document
import SchemaLint.Proofs.Sql.Name

/-!
# Literals in statements

A literal (`Literal`) is an integer with or without a sign, or a text in single quotes with every
quote and backslash in it doubled. It is an item of a list (`Literal.isItem`), whatever it contains:
a doubled quote closes the quote and opens it again, so nothing of the text is seen. A literal is
written to its field or compared with it as it stands (`Literal.mention`), and so is a name that stands
for a value, unless what follows makes it a reference to a column or arithmetic
(`PlainName.valueMention_eq`).
-/

namespace SchemaLint.Sql

open Form Nesting Text
open Shell (IsItem Spacing separated)

/-! ## Literals and their texts -/

/-- What stands in front of a number. -/
inductive Sign where
  | none | plus | minus
  deriving DecidableEq

def Sign.text : Sign → List Char
  | none => []
  | plus => ['+']
  | minus => ['-']

/-- A value as it is written in a statement. -/
inductive Literal where
  /-- An integer with decimal digits. -/
  | integer (sign : Sign) (digits : List Char) (ne_nil : digits ≠ [])
      (isDigit : ∀ c ∈ digits, c.isDigit = true)
  /-- A text by what it says. -/
  | string (contents : List Char)

/-- A text with every quote and backslash doubled. -/
def doubled (s : List Char) : List Char :=
  s.flatMap fun c => if c == '\x27' || c == '\\' then [c, c] else [c]

def Literal.text : Literal → List Char
  | integer sign digits _ _ => sign.text ++ digits
  | string contents => '\x27' :: (doubled contents ++ ['\x27'])

theorem staysQuoted_doubled (s : List Char) : StaysQuoted '\x27' (doubled s) := by
  induction s with
  | nil => exact .nil
  | cons c s ih =>
    rw [doubled, List.flatMap_cons, ← doubled]
    refine .append ?_ ih
    by_cases hq : c = '\x27'
    · rw [hq]
      exact .twice rfl
    · by_cases hb : c = '\\'
      · rw [hb]
        exact (Escaped.escape .nil).staysQuoted
      · rw [if_neg (by simp [hq, hb])]
        exact (Escaped.plain hq hb .nil).staysQuoted

theorem isIdentChar_of_isDigit {c : Char} (h : c.isDigit = true) : isIdentChar c = true := by
  simp [isIdentChar, Char.isAlphanum, h]

theorem isDigit_toLower {c : Char} (h : c.isDigit = true) : c.toLower.isDigit = true :=
  forall_ascii (P := fun c => c.isDigit = true → c.toLower.isDigit = true) (by decide +kernel)
    (toNat_lt_of_isIdentChar (isIdentChar_of_isDigit h)) h

/-! ## Numbers -/

/-- Characters of a decimal number. -/
def isDecimalChar (c : Char) : Bool :=
  c.isDigit || c == '.' || c == '+' || c == '-'

theorem isDecimalChar_of_isDigit {c : Char} (h : c.isDigit = true) : isDecimalChar c = true := by
  simp [isDecimalChar, h]

theorem isNumberChar_of_isDecimalChar {c : Char} (h : isDecimalChar c = true) :
    Shell.isNumberChar c = true := by
  unfold isDecimalChar at h
  rw [Shell.isNumberChar, h, Bool.true_or, Bool.true_or]

theorem isNameStart_of_isDecimalChar {c : Char} (h : isDecimalChar c = true) :
    isNameStart c = false ∧ (c == '\x60') = false :=
  forall_ascii
    (P := fun c => isDecimalChar c = true → isNameStart c = false ∧ (c == '\x60') = false)
    (by decide +kernel) (Shell.toNat_lt_of_isNumberChar (isNumberChar_of_isDecimalChar h)) h

theorem Sign.isDecimalChar_append (sign : Sign) {s : List Char}
    (h : ∀ c ∈ s, isDecimalChar c = true) : ∀ c ∈ sign.text ++ s, isDecimalChar c = true := by
  have hsign : ∀ c ∈ sign.text, isDecimalChar c = true := by
    cases sign <;> exact List.all_eq_true.mp (by decide)
  intro c hc
  rcases List.mem_append.mp hc with hc | hc
  · exact hsign c hc
  · exact h c hc

theorem isItem_of_decimal {s : List Char} (h : ∀ c ∈ s, isDecimalChar c = true) (hne : s ≠ []) :
    IsItem s :=
  Shell.isItem_of_word
    (fun c hc => Shell.isWordChar_of_isNumberChar (isNumberChar_of_isDecimalChar (h c hc))) hne

/-! ## Values that begin like no name -/

section Values

variable {s : List Char} (hs : ∀ c ∈ s.head?, isNameStart c = false ∧ (c == '\x60') = false)

include hs

theorem plainName_eq_nil (p : Char → Bool) : plainName p s = [] := by
  have htick : tick s = [] := char_eq_nil fun c hc => (hs c hc).2
  have hstart : char isNameStart s = [] := char_eq_nil fun c hc => (hs c hc).1
  exact append_eq_nil _ (append_eq_nil _ ((Only.opt_nil htick).append_eq_nil hstart))

theorem valueMention_of_head (field : String) {value : List Char} (h : trim value = s) :
    valueMention field value = .assign field (String.ofList s) := by
  have hreference : columnReference s = [] :=
    bind_eq_nil _ (append_eq_nil _ (append_eq_nil _ (plainName_eq_nil hs _)))
  have harithmetic : columnArithmetic s = [] :=
    bind_eq_nil _ (append_eq_nil _ (append_eq_nil _ (plainName_eq_nil hs _)))
  unfold valueMention fits
  rw [h, hreference, harithmetic]
  rfl

end Values

/-! ## Names as values -/

/-- A text behind a name that does not make it a reference to a column of a table, or arithmetic. -/
structure LeavesName (tail : List Char) : Prop where
  ends : EndsName tail
  blank_then : ∃ gap r, tail = gap ++ r ∧ (∀ c ∈ gap, isBlank c = true) ∧
    ∀ c ∈ r.head?, isBlank c = false ∧ c ∉ ['.', '-', '+', '*', '/', '%']

theorem leavesName_nil : LeavesName [] :=
  ⟨nofun, [], [], rfl, nofun, nofun⟩

namespace PlainName

variable (n : PlainName) {tail : List Char}

theorem isItem : IsItem n.text :=
  have hphrase : Phrase [] n.text := n.phrase (by simp)
  ⟨n.balanced, n.hides (by decide), hphrase.trimmed, n.ne_nil⟩

theorem only_plainName {p : Char → Bool} (hp : ∀ c ∈ n.text, p c = true)
    (htail : ∀ c ∈ tail.head?, p c = false ∧ c ≠ '\x60') :
    Only (plainName p) (n.text ++ tail) n.text tail := by
  obtain ⟨c, hc, hstart⟩ := n.head
  obtain ⟨x, hx⟩ := List.head?_eq_some_iff.mp hc
  have hspan : Only (span p) (x ++ tail) x tail :=
    .span (fun d hd => hp d (by rw [hx]; exact List.mem_cons_of_mem c hd)) fun d hd => (htail d hd).1
  have htick : tick tail = [] := char_eq_nil fun d hd => beq_eq_false_iff_ne.mpr (htail d hd).2
  have hopen : Only (opt tick) (n.text ++ tail) [] (n.text ++ tail) := .opt_nil (n.tick_eq_nil tail)
  rw [hx] at hopen ⊢
  have hread := ((hopen.append (.char hstart)).append hspan).append (Only.opt_nil htick)
  rw [List.append_nil] at hread
  exact hread

/-- A name that is called or stands alone is recorded, with what stands behind it. -/
theorem valueMention_eq (htail : LeavesName tail) (field : String) {value : List Char}
    (h : trim value = n.text ++ tail) :
    valueMention field value = .assign field (String.ofList (n.text ++ tail)) := by
  obtain ⟨hends, gap, r, rfl, hgap, hr⟩ := htail
  have hdot : dot (gap ++ r) = [] :=
    dot_gap_eq_nil hgap fun c hc => ⟨(hr c hc).1, fun h => (hr c hc).2 (by simp [h])⟩
  have hword : Only (plainName Unicode.isWord) (n.text ++ (gap ++ r)) n.text (gap ++ r) := by
    refine n.only_plainName (fun c hc => isWord_of_nameChar (n.chars c hc)) fun c hc => ?_
    exact ⟨(Bool.or_eq_false_iff.mp (hends c hc).1).1, (hends c hc).2⟩
  have hname := n.only_plainName (fun c hc => (ascii_nameChar (n.chars c hc)).2.1) hends
  have hreference : columnReference (n.text ++ (gap ++ r)) = [] :=
    bind_eq_nil _ (append_eq_nil _ (hword.append_eq_nil hdot))
  have harithmetic : columnArithmetic (n.text ++ (gap ++ r)) = [] := by
    rw [List.eq_nil_iff_forall_not_mem]
    rintro ⟨u, t⟩ hmem
    obtain ⟨_, t', hread, hop⟩ := mem_bind.mp hmem
    obtain ⟨_, y, u', hcolumn, hblanks, -⟩ := mem_append.mp hread
    rw [hname.append (.opt_nil (append_eq_nil _ hdot)), List.mem_singleton] at hcolumn
    obtain ⟨-, rfl⟩ := Prod.mk.inj hcolumn
    -- No operator stands where the blanks may be left.
    have hhead := head?_of_mem_blanks hgap (fun c hc => (hr c hc).1) hblanks
    rw [bind_eq_nil _ (char_eq_nil fun c hc => ?_)] at hop
    · cases hop
    refine Bool.eq_false_iff.mpr fun htest => ?_
    simp only [Bool.or_eq_true, beq_iff_eq] at htest
    rcases hhead c hc with hblank | hr'
    · rcases htest with (((rfl | rfl) | rfl) | rfl) | rfl <;> exact absurd hblank (by decide)
    · apply (hr c hr').2
      rcases htest with (((rfl | rfl) | rfl) | rfl) | rfl <;> simp
  unfold valueMention fits
  rw [h, hreference, harithmetic]
  rfl

end PlainName

/-! ## What literals are -/

namespace Literal

variable (v : Literal)

theorem isItem : IsItem v.text := by
  cases v with
  | integer sign digits hne hdigit =>
    exact isItem_of_decimal (sign.isDecimalChar_append fun c hc => isDecimalChar_of_isDigit (hdigit c hc))
      (by simp [text, hne])
  | string contents => exact Shell.isItem_of_staysQuoted rfl (staysQuoted_doubled contents)

theorem head?_text : ∀ c ∈ v.text.head?, isNameStart c = false ∧ (c == '\x60') = false := by
  cases v with
  | integer sign digits _ hdigit =>
    have hdecimal := sign.isDecimalChar_append fun c hc => isDecimalChar_of_isDigit (hdigit c hc)
    exact fun c hc => isNameStart_of_isDecimalChar (hdecimal c (List.mem_of_head? hc))
  | string contents =>
    rintro c ⟨⟩
    decide

/-- A literal lacks all keywords that are not numbers. -/
theorem lacks {ws : List String} (hws : ∀ w ∈ ws, (lower w.toList).all Char.isDigit = false) :
    Lacks ws v.text := by
  cases v with
  | integer sign digits hne hdigit =>
    have hident : ∀ c ∈ digits, isIdentChar c = true :=
      fun c hc => isIdentChar_of_isDigit (hdigit c hc)
    have hword : Lacks ws digits := by
      refine .singleWord hident fun w hw heq => ?_
      have hall : (lower digits).all Char.isDigit = true := by
        rw [List.all_eq_true]
        intro c hc
        obtain ⟨d, hd, rfl⟩ := List.mem_map.mp hc
        exact isDigit_toLower (hdigit d hd)
      rw [heq, hws w hw] at hall
      cases hall
    cases sign with
    | none => exact hword
    | plus => exact .symbols (x := ['+']) (by simp; decide) hword
    | minus =>
      obtain ⟨d, ds, rfl⟩ := List.exists_cons_of_ne_nil hne
      exact .sign (hident d List.mem_cons_self) hword
  | string contents =>
    have hlacks : Lacks ws ('\x27' :: (doubled contents ++ ['\x27']) ++ []) :=
      .quoted rfl (staysQuoted_doubled contents) .nil
    rwa [List.append_nil] at hlacks

theorem phrase {ws : List String} (hws : ∀ w ∈ ws, (lower w.toList).all Char.isDigit = false) :
    Phrase ws v.text :=
  ⟨v.lacks hws, v.isItem.trimmed, v.isItem.ne_nil⟩

theorem mention (field : String) {value : List Char} (h : trim value = v.text) :
    valueMention field value = .assign field (String.ofList v.text) :=
  valueMention_of_head v.head?_text field h

end Literal

/-! ## Lists -/

theorem lacks_separated (sp : Spacing) {ws : List String} {xs : List (List Char)}
    (h : ∀ x ∈ xs, Lacks ws x) : Lacks ws (separated sp xs) := by
  match xs, h with
  | [], _ => exact .nil
  | [x], h => exact h x List.mem_cons_self
  | x :: y :: xs, h =>
    have hlater := lacks_separated sp fun z hz => h z (List.mem_cons_of_mem x hz)
    have hcomma : Lacks ws (sp.before ++ ([','] ++ (sp.after ++ separated sp (y :: xs)))) :=
      .blank sp.isBlank_before (.symbols (by simp; decide) (.blank sp.isBlank_after hlater))
    rw [separated, List.append_assoc]
    refine (h x List.mem_cons_self).append hcomma fun c hc => ?_
    cases hb : sp.before with
    | nil =>
      rw [hb] at hc
      obtain rfl : ',' = c := Option.some.inj hc
      decide
    | cons b before =>
      rw [hb] at hc
      obtain rfl : b = c := Option.some.inj hc
      exact isIdentChar_of_isBlank (sp.isBlank_before b (by rw [hb]; exact List.mem_cons_self))

theorem phrase_separated (sp : Spacing) {ws : List String} {x : List Char} {xs : List (List Char)}
    (h : ∀ y ∈ x :: xs, Phrase ws y) : Phrase ws (separated sp (x :: xs)) := by
  have hx := h x List.mem_cons_self
  match xs, h with
  | [], _ => exact hx
  | y :: xs, h =>
    have hlater := phrase_separated sp fun z hz => h z (List.mem_cons_of_mem x hz)
    have hlacks : Lacks ws (separated sp (x :: y :: xs)) :=
      lacks_separated sp fun z hz => (h z hz).lacks
    have hshape : separated sp (x :: y :: xs) =
        (x ++ sp.before ++ ',' :: sp.after) ++ separated sp (y :: xs) := by
      simp [separated]
    refine ⟨hlacks, ⟨?_, ?_⟩, ?_⟩
    · rw [separated, List.append_assoc, List.head?_append_of_ne_nil _ hx.ne_nil]
      exact hx.trimmed.head
    · rw [hshape, List.getLast?_append_of_ne_nil _ hlater.ne_nil]
      exact hlater.trimmed.last
    · rw [hshape]
      simp

end SchemaLint.Sql
