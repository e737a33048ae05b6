import Mathlib.Data.List.Basic
import SchemaLint.Proofs.Nesting.Cut
import SchemaLint.Proofs.Text
import SchemaLint.Shell.Value

/-!
# Documents as they are written

A document is written with blanks of any kind around its brackets, colons and commas (`Spacing`).
Scalars (`Scalar`) and bracketed lists of items (`enclose`) are items (`IsItem`): balanced, trimmed
texts that hide commas. Reading takes a written document apart again: a list into its items
(`splitTop_separated`), an object into its entries (`entries_object`), and a value into what kind it
is (`ofText_scalar`, `ofText_object`, `ofText_array`).
-/

namespace SchemaLint.Shell

open Nesting Text

/-! ## Items -/

/-- Where blanks stand in a written document. -/
structure Spacing where
  /-- After an opening bracket and before a closing one. -/
  edge : List Char
  /-- Before a colon or a comma. -/
  before : List Char
  /-- After a colon or a comma. -/
  after : List Char
  /-- Whether operators stand in quotes. -/
  quotesOperators : Bool
  isBlank_edge : ∀ c ∈ edge, isBlank c = true
  isBlank_before : ∀ c ∈ before, isBlank c = true
  isBlank_after : ∀ c ∈ after, isBlank c = true

/-- No blanks, and operators without quotes. -/
def Spacing.tight : Spacing where
  edge := []
  before := []
  after := []
  quotesOperators := false
  isBlank_edge := isBlank_nil
  isBlank_before := isBlank_nil
  isBlank_after := isBlank_nil

/-- A text that stands for itself between commas. -/
structure IsItem (s : List Char) : Prop where
  balanced : Balanced s
  hides_comma : Hides (· == ',') s
  trimmed : Trimmed s
  ne_nil : s ≠ []

theorem IsItem.append {s t : List Char} (hs : IsItem s) (ht : IsItem t) : IsItem (s ++ t) := by
  refine ⟨hs.balanced.append ht.balanced, hs.hides_comma.append hs.balanced ht.hides_comma,
    ⟨?_, ?_⟩, List.append_ne_nil_of_left_ne_nil hs.ne_nil t⟩
  · rw [List.head?_append_of_ne_nil _ hs.ne_nil]
    exact hs.trimmed.head
  · rw [List.getLast?_append_of_ne_nil _ ht.ne_nil]
    exact ht.trimmed.last

/-- Items with commas between them. -/
def separated (sp : Spacing) : List (List Char) → List Char
  | [] => []
  | [x] => x
  | x :: y :: xs => x ++ sp.before ++ ',' :: (sp.after ++ separated sp (y :: xs))

/-- Items in a pair of brackets. -/
def enclose (sp : Spacing) (o c : Char) (xs : List (List Char)) : List Char :=
  o :: (sp.edge ++ separated sp xs ++ sp.edge ++ [c])

theorem balanced_separated (sp : Spacing) {xs : List (List Char)} (h : ∀ x ∈ xs, IsItem x) :
    Balanced (separated sp xs) := by
  match xs, h with
  | [], _ => exact Balanced.nil
  | [x], h => exact (h x List.mem_cons_self).balanced
  | x :: y :: xs, h =>
    have ih := balanced_separated sp fun z hz => h z (List.mem_cons_of_mem x hz)
    exact ((h x List.mem_cons_self).balanced.append (Balanced.of_blank sp.isBlank_before)).append
      (Balanced.cons (by decide) ((Balanced.of_blank sp.isBlank_after).append ih))

theorem balanced_inside (sp : Spacing) {xs : List (List Char)} (h : ∀ x ∈ xs, IsItem x) :
    Balanced (sp.edge ++ separated sp xs ++ sp.edge) :=
  have hedge := Balanced.of_blank sp.isBlank_edge
  (hedge.append (balanced_separated sp h)).append hedge

/-- A pair of brackets around a balanced text. -/
theorem isItem_bracketed {o c : Char} (ho : isOpener o = true) (hc : isCloser c = true)
    {s : List Char} (hs : Balanced s) : IsItem (o :: (s ++ [c])) := by
  refine ⟨hs.bracketed ho hc, ?_, ⟨?_, ?_⟩, List.cons_ne_nil _ _⟩
  · apply Hides.bracketed ho hc hs
    · rw [beq_eq_false_iff_ne]
      rintro rfl
      exact absurd ho (by decide)
    · rw [beq_eq_false_iff_ne]
      rintro rfl
      exact absurd hc (by decide)
  · intro d hd
    obtain rfl : o = d := Option.some.inj hd
    exact isBlank_eq_false (by simp [isPlain, ho])
  · intro d hd
    obtain rfl : c = d := by simpa [List.getLast?_cons] using hd
    exact isBlank_eq_false (by simp [isPlain, hc])

theorem isItem_enclose (sp : Spacing) {o c : Char} (ho : isOpener o = true) (hc : isCloser c = true)
    {xs : List (List Char)} (h : ∀ x ∈ xs, IsItem x) : IsItem (enclose sp o c xs) :=
  isItem_bracketed ho hc (balanced_inside sp h)

/-- Two items with a sign between them that is no comma. -/
theorem isItem_pair (sp : Spacing) {sep : Char} (hsep : isPlain sep = true) (hcomma : sep ≠ ',')
    {x y : List Char} (hx : IsItem x) (hy : IsItem y) :
    IsItem (x ++ sp.before ++ sep :: (sp.after ++ y)) := by
  have hleft : Balanced (x ++ sp.before) := hx.balanced.append (.of_blank sp.isBlank_before)
  have hright : Hides (· == ',') ([sep] ++ (sp.after ++ y)) :=
    (Hides.of_forall (by simpa using hcomma)).append (.cons hsep .nil)
      ((Hides.of_blank sp.isBlank_after (by decide)).append (.of_blank sp.isBlank_after)
        hy.hides_comma)
  refine ⟨hleft.append (.cons hsep ((Balanced.of_blank sp.isBlank_after).append hy.balanced)),
    (hx.hides_comma.append hx.balanced (.of_blank sp.isBlank_before (by decide))).append hleft hright,
    ⟨?_, ?_⟩, by simp⟩
  · rw [List.append_assoc, List.head?_append_of_ne_nil _ hx.ne_nil]
    exact hx.trimmed.head
  · rw [← List.cons_append, ← List.append_assoc, List.getLast?_append_of_ne_nil _ hy.ne_nil]
    exact hy.trimmed.last

theorem separated_cons (sp : Spacing) (x : List Char) {xs : List (List Char)} (hne : xs ≠ []) :
    separated sp (x :: xs) = (x ++ sp.before) ++ ',' :: (sp.after ++ separated sp xs) := by
  obtain ⟨y, ys, rfl⟩ := List.exists_cons_of_ne_nil hne
  rfl

theorem mem_separated_last (sp : Spacing) (xs : List (List Char)) {x : List Char} {c : Char}
    (hc : c ∈ x) : c ∈ separated sp (xs ++ [x]) := by
  induction xs with
  | nil => exact hc
  | cons y ys ih =>
    rw [List.cons_append, separated_cons sp y (by simp)]
    exact List.mem_append_right _ (List.mem_cons_of_mem _ (List.mem_append_right _ ih))

theorem splitTop_blank_append {gap : List Char} (hgap : ∀ c ∈ gap, isBlank c = true)
    (s : List Char) : splitTop ',' (gap ++ s) = splitTop ',' s := by
  have hafter : start.after gap = start := (Balanced.of_blank hgap).after_eq 0
  obtain ⟨x, xs, hx⟩ := List.exists_cons_of_ne_nil (segments_ne_nil ',' s)
  rw [splitTop, splitTop, segments_append hafter (.of_blank hgap (by decide)), hx, foldr_consHead,
    List.map_cons, List.map_cons, trim_blank_append hgap]

/-- What stands behind a list is split together with the last item. -/
theorem splitTop_separated_append (sp : Spacing) {xs : List (List Char)} (h : ∀ x ∈ xs, IsItem x)
    (x t : List Char) : splitTop ',' (separated sp (xs ++ [x]) ++ t) = xs ++ splitTop ',' (x ++ t) := by
  induction xs with
  | nil => rfl
  | cons y ys ih =>
    have hy := h y List.mem_cons_self
    have hlater := ih fun z hz => h z (List.mem_cons_of_mem y hz)
    have htrim : trim (y ++ sp.before) = y := by
      rw [trim_append_blank sp.isBlank_before, hy.trimmed.trim_eq]
    rw [List.cons_append, separated_cons sp y (by simp), List.append_assoc, List.cons_append,
      splitTop_append_sep (by decide) (hy.balanced.append (.of_blank sp.isBlank_before))
        (hy.hides_comma.append hy.balanced (.of_blank sp.isBlank_before (by decide)))
        (by rw [htrim]; exact hy.ne_nil),
      htrim, List.append_assoc, splitTop_blank_append sp.isBlank_after, hlater, List.cons_append]

/-- A list of items is taken apart into its items, whatever blanks stand around it. -/
theorem splitTop_separated (sp : Spacing) {xs : List (List Char)} (h : ∀ x ∈ xs, IsItem x)
    {g g' : List Char} (hg : ∀ c ∈ g, isBlank c = true) (hg' : ∀ c ∈ g', isBlank c = true) :
    splitTop ',' (g ++ separated sp xs ++ g') = xs := by
  rw [List.append_assoc, splitTop_blank_append hg]
  rcases List.eq_nil_or_concat xs with rfl | ⟨ys, x, rfl⟩
  · rw [separated, List.nil_append, ← List.append_nil g', splitTop_blank_append hg']
    rfl
  · rw [List.concat_eq_append] at h ⊢
    have hx := h x (by simp)
    have htrim : trim (x ++ g') = x := by rw [trim_append_blank hg', hx.trimmed.trim_eq]
    rw [splitTop_separated_append sp fun y hy => h y (List.mem_append_left _ hy),
      splitTop_of_hides (hx.hides_comma.append hx.balanced (.of_blank hg' (by decide)))
        (by rw [htrim]; exact hx.ne_nil), htrim]

/-! ## Kinds of values -/

/-- Of all pairs of brackets a balanced text is enclosed in the two that stand around it. -/
theorem enclosed?_of_balanced {o c : Char} (ho : isOpener o = true) (hc : isCloser c = true)
    {s : List Char} (hs : Balanced s) (opener closer : Char) :
    enclosed? opener closer (o :: (s ++ [c])) = if o = opener ∧ c = closer then some s else none := by
  unfold enclosed?
  rw [cutAtPartner?_bracketed ho hc hs []]
  simp

theorem enclosed?_bracketed {o c : Char} (ho : isOpener o = true) (hc : isCloser c = true)
    {s : List Char} (hs : Balanced s) : enclosed? o c (o :: (s ++ [c])) = some s := by
  rw [enclosed?_of_balanced ho hc hs, if_pos ⟨rfl, rfl⟩]

theorem enclosed?_enclose (sp : Spacing) {o c : Char} (ho : isOpener o = true)
    (hc : isCloser c = true) {xs : List (List Char)} (h : ∀ x ∈ xs, IsItem x) :
    enclosed? o c (enclose sp o c xs) = some (sp.edge ++ separated sp xs ++ sp.edge) :=
  enclosed?_bracketed ho hc (balanced_inside sp h)

theorem enclosed?_of_head {o c : Char} {s : List Char} (h : s.head? ≠ some o) :
    enclosed? o c s = none := by
  unfold enclosed?
  split
  · simp [h]
  · rfl

/-- A balanced text in braces is an object, whatever it holds. -/
theorem ofText_braced {s : List Char} (hs : Balanced s) :
    Value.ofText ('\x7b' :: (s ++ ['\x7d'])) = .object ('\x7b' :: (s ++ ['\x7d'])) := by
  have htrim := (isItem_bracketed (o := '\x7b') (c := '\x7d') rfl rfl hs).trimmed.trim_eq
  have hinner := enclosed?_bracketed (o := '\x7b') (c := '\x7d') rfl rfl hs
  unfold Value.ofText braced?
  rw [htrim, hinner]
  rfl

/-- A balanced text in brackets is an array, whatever it holds. -/
theorem ofText_bracketed {s : List Char} (hs : Balanced s) :
    Value.ofText ('[' :: (s ++ [']'])) = .array s := by
  have htrim := (isItem_bracketed (o := '[') (c := ']') rfl rfl hs).trimmed.trim_eq
  have hobject : enclosed? '\x7b' '\x7d' ('[' :: (s ++ [']'])) = none :=
    enclosed?_of_head (by simp)
  have hinner := enclosed?_bracketed (o := '[') (c := ']') rfl rfl hs
  unfold Value.ofText braced? bracketed?
  rw [htrim, hobject, hinner]
  rfl

theorem ofText_object (sp : Spacing) {xs : List (List Char)} (h : ∀ x ∈ xs, IsItem x) :
    Value.ofText (enclose sp '\x7b' '\x7d' xs) = .object (enclose sp '\x7b' '\x7d' xs) :=
  ofText_braced (balanced_inside sp h)

theorem ofText_array (sp : Spacing) {xs : List (List Char)} (h : ∀ x ∈ xs, IsItem x) :
    Value.ofText (enclose sp '[' ']' xs) = .array (sp.edge ++ separated sp xs ++ sp.edge) :=
  ofText_bracketed (balanced_inside sp h)

theorem items_array (sp : Spacing) {xs : List (List Char)} (h : ∀ x ∈ xs, IsItem x) :
    (Value.ofText (enclose sp '[' ']' xs)).items = xs := by
  rw [ofText_array sp h, Value.items, splitTop_separated sp h sp.isBlank_edge sp.isBlank_edge]

/-- An item that begins with neither a brace nor a bracket is a scalar. -/
theorem ofText_of_head {s : List Char} (h : Trimmed s) (hobject : s.head? ≠ some '\x7b')
    (harray : s.head? ≠ some '[') : Value.ofText s = .scalar s := by
  unfold Value.ofText braced? bracketed?
  rw [h.trim_eq, enclosed?_of_head hobject, enclosed?_of_head harray]
  rfl

/-! ## Scalars -/

/-- Characters of a number in any of its notations. -/
def isNumberChar (c : Char) : Bool :=
  c.isDigit || c == '.' || c == '+' || c == '-' || c == 'e' || c == 'E'

/-- A scalar as it is written. -/
inductive Scalar where
  /-- A number: digits with signs, a point and an exponent. -/
  | number (text : List Char) (ne_nil : text ≠ []) (chars : ∀ c ∈ text, isNumberChar c = true)
  | bool (b : Bool)
  | null
  /-- A string by what stands between its quotes. -/
  | string (body : List Char) (escaped : Escaped '\x22' body)

/-- The text of a scalar. -/
def Scalar.text : Scalar → List Char
  | number text _ _ => text
  | bool true => ['t', 'r', 'u', 'e']
  | bool false => ['f', 'a', 'l', 's', 'e']
  | null => ['n', 'u', 'l', 'l']
  | string body _ => '\x22' :: (body ++ ['\x22'])

/-- Characters that mean nothing to a reader of documents. -/
def isWordChar (c : Char) : Bool :=
  isPlain c && !isBlank c && c != ',' && c != ':' && c != '/' && c != '$'

theorem toNat_lt_of_isNumberChar {c : Char} (h : isNumberChar c = true) : c.toNat < 128 := by
  simp only [isNumberChar, Bool.or_eq_true, beq_iff_eq] at h
  rcases h with ((((h | rfl) | rfl) | rfl) | rfl) | rfl
  · have hrange : 48 ≤ c.toNat ∧ c.toNat ≤ 57 := by
      simpa [Char.isDigit, UInt32.le_iff_toNat_le] using h
    omega
  all_goals decide

theorem isWordChar_of_isNumberChar {c : Char} (h : isNumberChar c = true) : isWordChar c = true :=
  forall_ascii (P := fun c => isNumberChar c = true → isWordChar c = true) (by decide +kernel)
    (toNat_lt_of_isNumberChar h) h

section Words

variable {s : List Char} (h : ∀ c ∈ s, isWordChar c = true)

include h in
theorem isItem_of_word (hne : s ≠ []) : IsItem s := by
  have hchar : ∀ c ∈ s, isPlain c = true ∧ isBlank c = false ∧ (c == ',') = false := by
    intro c hc
    have := h c hc
    simp only [isWordChar, Bool.and_eq_true, Bool.not_eq_true', bne_iff_ne] at this
    exact ⟨this.1.1.1.1.1, this.1.1.1.1.2, beq_eq_false_iff_ne.mpr this.1.1.1.2⟩
  refine ⟨.of_plain fun c hc => (hchar c hc).1, .of_forall fun c hc => (hchar c hc).2.2,
    ⟨fun c hc => (hchar c ?_).2.1, fun c hc => (hchar c ?_).2.1⟩, hne⟩
  · exact List.mem_of_head? hc
  · exact List.mem_of_getLast? hc

include h in
theorem head?_of_word {c : Char} (hc : isWordChar c = false) : s.head? ≠ some c := by
  intro hhead
  rw [h c (List.mem_of_head? hhead)] at hc
  cases hc

end Words

theorem isItem_of_staysQuoted {q : Char} {body : List Char} (hq : isQuote q = true)
    (h : StaysQuoted q body) : IsItem (q :: (body ++ [q])) := by
  have hblank : isBlank q = false := isBlank_eq_false (by simp [isPlain, hq])
  refine ⟨.of_staysQuoted hq h, .of_staysQuoted hq h, ⟨?_, ?_⟩, List.cons_ne_nil _ _⟩
  · intro c hc
    obtain rfl : q = c := by simpa using hc
    exact hblank
  · intro c hc
    obtain rfl : q = c := by simpa [List.getLast?_cons] using hc
    exact hblank

theorem isItem_quoted {body : List Char} (h : Escaped '\x22' body) :
    IsItem ('\x22' :: (body ++ ['\x22'])) :=
  isItem_of_staysQuoted rfl h.staysQuoted

/-- A scalar is a word or a quoted text. -/
theorem Scalar.word_or_quoted (v : Scalar) :
    (v.text ≠ [] ∧ ∀ c ∈ v.text, isWordChar c = true) ∨
      ∃ body, Escaped '\x22' body ∧ v.text = '\x22' :: (body ++ ['\x22']) := by
  cases v with
  | number text hne hchars => exact .inl ⟨hne, fun c hc => isWordChar_of_isNumberChar (hchars c hc)⟩
  | bool b => cases b <;> exact .inl ⟨List.cons_ne_nil _ _, List.all_eq_true.mp rfl⟩
  | null => exact .inl ⟨List.cons_ne_nil _ _, List.all_eq_true.mp rfl⟩
  | string body hbody => exact .inr ⟨body, hbody, rfl⟩

theorem Scalar.isItem (v : Scalar) : IsItem v.text := by
  rcases v.word_or_quoted with ⟨hne, hword⟩ | ⟨body, hbody, heq⟩
  · exact isItem_of_word hword hne
  · rw [heq]
    exact isItem_quoted hbody

/-- No scalar begins like an object, an array or a regular expression. -/
theorem Scalar.head?_text (v : Scalar) :
    v.text.head? ≠ some '\x7b' ∧ v.text.head? ≠ some '[' ∧ v.text.head? ≠ some '/' := by
  rcases v.word_or_quoted with ⟨-, hword⟩ | ⟨body, -, heq⟩
  · exact ⟨head?_of_word hword (by decide), head?_of_word hword (by decide),
      head?_of_word hword (by decide)⟩
  · rw [heq]
    simp

theorem ofText_scalar (v : Scalar) : Value.ofText v.text = .scalar v.text :=
  ofText_of_head v.isItem.trimmed v.head?_text.1 v.head?_text.2.1

/-! ## Entries -/

/-- A written key and the name that it stands for. -/
structure IsKey (key name : List Char) : Prop where
  isItem : IsItem key
  hides_colon : Hides (· == ':') key
  unquote_eq : Identifier.unquote key = name
  name_ne_nil : name ≠ []

/-- An entry of an object: its key as written, the name of the key, and its value as written. -/
structure Member where
  key : List Char
  name : List Char
  value : List Char
  isKey : IsKey key name
  isItem : IsItem value

/-- The text of an entry. -/
def Member.text (sp : Spacing) (m : Member) : List Char :=
  m.key ++ sp.before ++ ':' :: (sp.after ++ m.value)

theorem unquote_append_blank {s gap : List Char} (hgap : ∀ c ∈ gap, isBlank c = true) :
    Identifier.unquote (s ++ gap) = Identifier.unquote s := by
  unfold Identifier.unquote
  rw [trim_append_blank hgap]

namespace Member

variable (sp : Spacing) (m : Member)

theorem balanced_before : Balanced (m.key ++ sp.before) :=
  m.isKey.isItem.balanced.append (.of_blank sp.isBlank_before)

theorem read_text : entry? (m.text sp) = some (m.name, m.value) := by
  have hhides : Hides (· == ':') (m.key ++ sp.before) :=
    m.isKey.hides_colon.append m.isKey.isItem.balanced (.of_blank sp.isBlank_before (by decide))
  have hcut := cutAtTop?_append (by decide) (m.balanced_before sp) hhides (sp.after ++ m.value)
  have hname : Identifier.unquote (m.key ++ sp.before) = m.name := by
    rw [unquote_append_blank sp.isBlank_before, m.isKey.unquote_eq]
  have hvalue : trim (sp.after ++ m.value) = m.value := by
    rw [trim_blank_append sp.isBlank_after, m.isItem.trimmed.trim_eq]
  unfold entry? text
  rw [hcut]
  simp only [hname, hvalue]
  rw [if_neg (by simpa using m.isKey.name_ne_nil)]

theorem isItem_text : IsItem (m.text sp) :=
  isItem_pair sp (by decide) (by decide) m.isKey.isItem m.isItem

end Member

/-- An object is taken apart into its entries. -/
theorem entries_object (sp : Spacing) (ms : List Member) :
    entries (enclose sp '\x7b' '\x7d' (ms.map (Member.text sp))) =
      ms.map fun m => (m.name, m.value) := by
  have hitems : ∀ x ∈ ms.map (Member.text sp), IsItem x := by
    intro x hx
    obtain ⟨m, -, rfl⟩ := List.mem_map.mp hx
    exact m.isItem_text sp
  have htrim := (isItem_enclose sp (o := '\x7b') (c := '\x7d') rfl rfl hitems).trimmed.trim_eq
  have hread : entry? ∘ Member.text sp = fun m => some (m.name, m.value) :=
    funext fun m => m.read_text sp
  unfold entries braced?
  rw [htrim, enclosed?_enclose sp rfl rfl hitems]
  simp only [splitTop_separated sp hitems sp.isBlank_edge sp.isBlank_edge, List.filterMap_map]
  rw [hread, List.filterMap_eq_map']

/-! ## Keys -/

/-- The name of a field that is written in quotes as it is. -/
structure FieldName where
  name : List Char
  ne_nil : name ≠ []
  not_operator : name.head? ≠ some '$'
  chars : ∀ c ∈ name, c ≠ '\x22' ∧ c ≠ '\\'

/-- A text in double quotes. -/
def inQuotes (s : List Char) : List Char :=
  '\x22' :: (s ++ ['\x22'])

theorem escaped_of_plain {q : Char} {s : List Char} (h : ∀ c ∈ s, c ≠ q ∧ c ≠ '\\') :
    Escaped q s := by
  induction s with
  | nil => exact .nil
  | cons c s ih =>
    obtain ⟨hq, hb⟩ := h c List.mem_cons_self
    exact .plain hq hb (ih fun x hx => h x (List.mem_cons_of_mem c hx))

theorem unquote_quoted {q : Char} (hq : isQuote q = true) (s : List Char) :
    Identifier.unquote (q :: (s ++ [q])) = s := by
  have hblank : isBlank q = false := isBlank_eq_false (by simp [isPlain, hq])
  have htrimmed : Trimmed (q :: (s ++ [q])) := by
    refine ⟨fun c hc => ?_, fun c hc => ?_⟩
    · obtain rfl : q = c := Option.some.inj hc
      exact hblank
    · obtain rfl : q = c := by simpa [List.getLast?_cons] using hc
      exact hblank
  unfold Identifier.unquote
  rw [htrimmed.trim_eq]
  simp [hq]

theorem unquote_inQuotes (s : List Char) : Identifier.unquote (inQuotes s) = s :=
  unquote_quoted rfl s

theorem isKey_inQuotes {s : List Char} (hs : Escaped '\x22' s) (hne : s ≠ []) :
    IsKey (inQuotes s) s :=
  ⟨isItem_quoted hs, .quoted rfl hs, unquote_inQuotes s, hne⟩

theorem FieldName.isKey (f : FieldName) : IsKey (inQuotes f.name) f.name :=
  isKey_inQuotes (escaped_of_plain f.chars) f.ne_nil

/-- The key of an operator, in quotes or not. -/
def operatorKey (sp : Spacing) (operator : List Char) : List Char :=
  if sp.quotesOperators then inQuotes operator else operator

/-- The name of an operator: a dollar sign and letters. -/
structure IsOperatorName (s : List Char) : Prop where
  head : s.head? = some '$'
  chars : ∀ c ∈ s, (c == '$' || c.isAlpha) = true

theorem isPlain_of_isAlpha {c : Char} (h : c.isAlpha = true) :
    isPlain c = true ∧ isBlank c = false ∧ c ≠ ',' ∧ c ≠ ':' ∧ c ≠ '\x22' ∧ c ≠ '\\' :=
  forall_ascii (P := fun c => c.isAlpha = true → isPlain c = true ∧ isBlank c = false ∧ c ≠ ',' ∧
    c ≠ ':' ∧ c ≠ '\x22' ∧ c ≠ '\\') (by decide) (toNat_lt_of_isAlpha h) h

theorem IsOperatorName.isKey {s : List Char} (h : IsOperatorName s) (sp : Spacing) :
    IsKey (operatorKey sp s) s := by
  have hne : s ≠ [] := by
    rintro rfl
    cases h.head
  have hchar : ∀ c ∈ s, isPlain c = true ∧ isBlank c = false ∧ c ≠ ',' ∧ c ≠ ':' ∧ c ≠ '\x22' ∧
      c ≠ '\\' := by
    intro c hc
    rcases Bool.or_eq_true_iff.mp (h.chars c hc) with hdollar | halpha
    · rw [beq_iff_eq.mp hdollar]
      decide
    · exact isPlain_of_isAlpha halpha
  unfold operatorKey
  split
  · exact isKey_inQuotes (escaped_of_plain fun c hc => (hchar c hc).2.2.2.2) hne
  · have hitem : IsItem s :=
      ⟨.of_plain fun c hc => (hchar c hc).1,
        .of_forall fun c hc => beq_eq_false_iff_ne.mpr (hchar c hc).2.2.1,
        ⟨fun c hc => (hchar c (List.mem_of_head? hc)).2.1,
          fun c hc => (hchar c (List.mem_of_getLast? hc)).2.1⟩, hne⟩
    refine ⟨hitem, .of_forall fun c hc => beq_eq_false_iff_ne.mpr (hchar c hc).2.2.2.1, ?_, hne⟩
    obtain ⟨rest, rfl⟩ : ∃ rest, s = '$' :: rest := by
      cases s with
      | nil => exact absurd rfl hne
      | cons c rest =>
        obtain rfl : c = '$' := by simpa using h.head
        exact ⟨rest, rfl⟩
    unfold Identifier.unquote
    rw [hitem.trimmed.trim_eq]
    rfl

end SchemaLint.Shell
